import Scaffold.Proofs.Generation.Texts
import Scaffold.Proofs.Lint.Configuration
import Scaffold.Proofs.Lint.Fields
import Scaffold.Proofs.Schema.PlainNames
import Scaffold.Proofs.TypeScript.Modules

/-!
# Plain names in modules

In the modules names that follow from declared ones are identifiers, and the paths of routes stand
for themselves in quotes.  The field of a tenant and given keys are written as they are, and other
texts in quotes, where none may have the end of a line.  As long as these are plain too, every
module of a valid manifest can be read.
-/

namespace Scaffold

open Naming TypeScript Lint

/-! ## Identifiers -/

namespace Naming

section

variable {name : String} (h : isPascal name = true ∨ isCamel name = true)

include h

theorem isCamel_camel_snake : isCamel (camel (snake name)) = true := by
  obtain ⟨c, cs, rest, hworded, hc, -, hsnake⟩ := exists_lowerWords h
  exact isCamel_camel (by rw [hsnake, words_intercalate hworded]) hworded hc

theorem isCamel_camel_plural : isCamel (camel (pluralize (snake name))) = true := by
  obtain ⟨c, cs, rest, hworded, hc, -, hsnake⟩ := exists_lowerWords h
  obtain ⟨d, ds, vs, hplural, -, hd, hwords⟩ := exists_pluralize_eq hsnake hworded hc
  have hname : IsName (pluralize (snake name)) := isName_pluralize (isName_of_worded hsnake hworded)
  obtain ⟨tail, htail⟩ := exists_intercalate_eq '_' d ds vs
  rw [htail] at hplural
  obtain ⟨more, rest, heq⟩ := exists_words_eq (isAlphanumeric_of_isSmall hd)
    fun e he ↦ hname e (hplural ▸ he)
  rw [hplural, heq] at hwords
  exact isCamel_camel (by rw [hplural, heq]) hwords hd

theorem isCamel_camel_key : isCamel (camel (snake name ++ "_id")) = true := by
  obtain ⟨c, cs, rest, hworded, hc, -, hsnake⟩ := exists_lowerWords h
  have hid : IsWord false ['i', 'd'] := ⟨by decide, List.all_eq_true.mp rfl⟩
  have hkey : (snake name ++ "_id").toList =
      ['_'].intercalate (((c :: cs) :: rest) ++ [['i', 'd']]) := by
    obtain ⟨front, last, heq⟩ := (List.eq_nil_or_concat' ((c :: cs) :: rest)).resolve_left (by simp)
    rw [String.toList_append, hsnake, intercalate_concat, heq, intercalate_concat]
    simp
  exact isCamel_camel (by rw [hkey, words_intercalate (hworded.concat hid)]; rfl)
    (hworded.concat hid) hc

end

end Naming

namespace TypeScript

theorem isLetter_of_isAlphanumeric {c : Char} (h : isAlphanumeric c = true) :
    isLetter c = true := by
  have hall : ∀ n < 128, isAlphanumeric (Char.ofNat n) = true →
      isLetter (Char.ofNat n) = true := by
    decide
  have hc := hall c.toNat (isAscii_of_isNameCharacter (isNameCharacter_of_isAlphanumeric h))
  rw [Char.ofNat_toNat] at hc
  exact hc h

/-- Names that are well written are identifiers. -/
theorem isIdentifier_of_declared {name : String} (h : isPascal name = true ∨ isCamel name = true) :
    isIdentifier name = true := by
  obtain ⟨c, cs, hname, hsmall, hplain⟩ := exists_cons_of_declared h
  have hdigit : c.isDigit = false := by
    have hall : ∀ n < 128, isSmall (Char.ofNat n).toLower = true →
        (Char.ofNat n).isDigit = false := by
      decide
    have hascii := isAscii_of_isNameCharacter
      (isNameCharacter_of_isAlphanumeric (hplain c List.mem_cons_self))
    have hc := hall c.toNat hascii
    rw [Char.ofNat_toNat] at hc
    exact hc hsmall
  rw [isIdentifier, hname, Bool.and_eq_true, List.all_eq_true]
  exact ⟨by simp [hdigit], fun d hd ↦ isLetter_of_isAlphanumeric (hplain d hd)⟩

theorem ValueType.eq_enum_of_ofKind {kind : FieldKind} {values : List String}
    (h : ofKind kind = .oneOf values) : kind = .enum values := by
  cases kind <;> simp_all [ofKind]

theorem onOneLine_of_isIdentifier {name : String} (h : isIdentifier name = true) :
    OnOneLine name.toList := by
  have hletters := List.all_eq_true.mp (all_isLetter_of_isIdentifier h)
  exact ⟨fun hline ↦ absurd (hletters _ hline) (by decide),
    fun hreturn ↦ absurd (hletters _ hreturn) (by decide)⟩

/-- The paths of an entity stand for themselves in quotes. -/
theorem isBare_routes {entity : String} (h : isPascal entity = true) (op : Operation) :
    IsBare ((Routes.ofEntity entity).ofOperation op).toList := by
  have hplural : IsName (pluralOf entity) := isName_pluralize (isName_snake (isName_of_isPascal h))
  have hcollection : IsBare ("/" ++ kebab (pluralOf entity)).toList :=
    isBare_append.mpr ⟨by simp [IsBare], isBare_of_isName (isName_kebab hplural)⟩
  have hmember : IsBare ("/" ++ kebab (pluralOf entity) ++ "/:id").toList :=
    isBare_append.mpr ⟨hcollection, by simp [IsBare]⟩
  cases op with
  | list | create => exact hcollection
  | get | update | remove => exact hmember

end TypeScript

structure Record.WellNamed (r : Record) : Prop where
  name : isIdentifier r.name = true
  stem : isIdentifier (camel r.singular) = true
  key : isIdentifier (camel r.plural) = true
  singular : IsName r.singular
  path : ∀ op, IsBare (r.routes.ofOperation op).toList

theorem Record.wellNamed_ofEntity {e : Entity} (h : isPascal e.name = true) :
    (ofEntity e).WellNamed where
  name := isIdentifier_of_declared (.inl h)
  stem := isIdentifier_of_declared (.inr (isCamel_camel_snake (.inl h)))
  key := isIdentifier_of_declared (.inr (isCamel_camel_plural (.inl h)))
  singular := isName_snake (isName_of_isPascal h)
  path := isBare_routes h

/-! ## Manifests with plain names -/

/-- Whether whatever a manifest has in the modules of entities as it is written can be read again:
the field of a tenant and the names of given keys are identifiers, and texts are on one line. -/
structure Manifest.PlainInEntities (m : Manifest) : Prop where
  tenant : ∀ field ∈ m.tenantField?, isIdentifier field = true
  keys : ∀ r ∈ ownedRelations m, r.relation.kind = .hasOne → ∀ key ∈ r.relation.field,
    isIdentifier (camel key) = true
  values : ∀ e ∈ m.entities, ∀ f ∈ e.fields.entries, ∀ s ∈ f.2.kind.values, OnOneLine s.toList
  sources : ∀ e ∈ m.entities, ∀ s ∈ (e.source <|> m.source), OnOneLine s.baseUrl.toList ∧
    ∀ op, ∀ path ∈ s.endpoints.ofOperation op, OnOneLine path.toList

/-- The same for all modules: the index has locales besides. -/
structure Manifest.PlainInModules (m : Manifest) : Prop extends m.PlainInEntities where
  locales : ∀ l ∈ m.i18n, (∀ s ∈ l.defaultLocale, OnOneLine s.toList) ∧
    ∀ s ∈ l.locales, OnOneLine s.toList

namespace Manifest

variable {m : Manifest} {e : Entity}

section

variable [Pattern.Checker] (hvalid : m.validate.valid = true) (hplain : m.PlainInEntities)
  (he : e ∈ m.entities)

include hvalid hplain he

/-- The attributes of an entity with plain names have identifiers as names and values on one
line. -/
theorem readable_attribute {a : Attribute}
    (ha : a ∈ (Record.ofEntity (e.normalize m.defaults m.source)).attributes) :
    isIdentifier a.name = true ∧ ∀ values, ValueType.ofKind a.kind = .oneOf values →
      values ≠ [] ∧ ∀ s ∈ values, OnOneLine s.toList := by
  obtain ⟨f, hf, rfl⟩ := List.mem_map.mp ha
  have hplaced : PlacedField.mk ⟨.entity e.name, f.1⟩ (normalizeFields e.fields) f.2 ∈
      m.normalize.placedFields :=
    List.mem_flatMap.mpr ⟨_, List.mem_map_of_mem he,
      List.mem_append_left _ (List.mem_map_of_mem (f := fun f ↦ PlacedField.mk _ _ f.2) hf)⟩
  refine ⟨isIdentifier_of_declared (.inr
    (isCamel_of_mem_placedFields (m.valid_iff.mp hvalid).1 hplaced)), fun values hvalues ↦ ?_⟩
  have hkind : f.2.kind = .enum values := ValueType.eq_enum_of_ofKind hvalues
  refine ⟨((sound_of_valid hvalid _ hplaced).values values hkind).1, fun s hs ↦ ?_⟩
  obtain ⟨g, hg, rfl⟩ := List.mem_map.mp hf
  have hdeclared : g.2.kind = .enum values := hkind
  refine hplain.values e he g hg s ?_
  rw [hdeclared]
  exact hs

/-- The member for a key can be read. -/
theorem readable_keyMember {l : Link}
    (hl : l ∈ (Record.ofEntity (e.normalize m.defaults m.source)).ownedLinks) :
    (keyMember l).Readable := by
  obtain ⟨hl, hkind⟩ := List.mem_filter.mp hl
  obtain ⟨n, hn, rfl⟩ := List.mem_map.mp hl
  have hnames := names_eq_nil_iff.mp (m.valid_iff.mp hvalid).1 _ (List.mem_map_of_mem he)
  have hname : isCamel n.1 = true := (hnames.2.2 n hn).1
  obtain ⟨r, hr, rfl⟩ := List.mem_map.mp hn
  have hone : r.2.kind = .hasOne := of_decide_eq_true hkind
  refine ⟨?_, fun _ h ↦ nomatch h⟩
  change isIdentifier (camel (r.2.foreignKey e.name r.1)) = true
  rw [Relation.foreignKey, hone]
  cases hfield : r.2.field with
  | none => exact isIdentifier_of_declared (.inr (isCamel_camel_key (.inr hname)))
  | some key =>
      have howned : OwnedRelation.mk e.name r.1 r.2 ∈ ownedRelations m :=
        List.mem_flatMap.mpr ⟨e, he, List.mem_map_of_mem hr⟩
      exact hplain.keys _ howned hone key hfield

/-- All members of the interface of an entity with plain names can be read. -/
theorem readable_recordMembers :
    ∀ member ∈ (m.moduleFor e).record.members, member.Readable := by
  have hfixed {name : String} (hname : isIdentifier name = true) (isNullable : Bool) :
      Member.Readable { name, type := .string, isNullable } := ⟨hname, fun _ h ↦ nomatch h⟩
  intro member hmember
  change member ∈ recordMembers _ _ at hmember
  simp only [recordMembers, List.mem_append] at hmember
  rcases hmember with (((hmember | hmember) | hmember) | hmember) | hmember
  · rw [List.mem_singleton.mp hmember]
    exact hfixed rfl false
  · obtain ⟨henabled, hmember⟩ := List.mem_ite_nil_right.mp hmember
    rw [List.mem_singleton.mp hmember]
    refine hfixed (hplain.tenant _ ?_) false
    rw [← tenantField_ofManifest]
    exact if_pos henabled
  · obtain ⟨a, ha, rfl⟩ := List.mem_map.mp hmember
    exact ⟨(readable_attribute hvalid hplain he ha).1, (readable_attribute hvalid hplain he ha).2⟩
  · obtain ⟨l, hl, rfl⟩ := List.mem_map.mp hmember
    exact readable_keyMember hvalid hplain he hl
  · simp only [traitMembers, List.mem_append, List.mem_ite_nil_right, List.mem_cons,
      List.not_mem_nil, or_false] at hmember
    rcases hmember with ⟨-, rfl | rfl⟩ | ⟨-, rfl⟩
    · exact hfixed rfl false
    · exact hfixed rfl false
    · exact hfixed rfl true

/-- The module of an entity with plain names can be read. -/
theorem readable_moduleFor : (m.moduleFor e).Readable := by
  have hpascal : isPascal e.name = true := isPascal_of_valid hvalid (List.mem_map_of_mem he)
  have hnamed : (Record.ofEntity (e.normalize m.defaults m.source)).WellNamed :=
    Record.wellNamed_ofEntity hpascal
  have hstem : isIdentifier (m.moduleFor e).stem = true := by
    simp only [moduleFor, EntityModule.ofRecord]
    exact hnamed.stem
  refine ⟨hnamed.name, hstem, ⟨hnamed.name, readable_recordMembers hvalid hplain he⟩,
    ⟨(isIdentifier_input hnamed.name).1, ?_⟩, ?_, ?_⟩
  · intro member hmember
    obtain ⟨a, ha, rfl⟩ := List.mem_map.mp hmember
    have hattribute := readable_attribute hvalid hplain he (List.mem_of_mem_filter ha)
    exact ⟨hattribute.1, hattribute.2⟩
  · intro r hr
    obtain ⟨op, -, rfl⟩ := List.mem_map.mp hr
    exact ⟨isBare_method op, (hnamed.path op).onOneLine⟩
  · intro r hr
    obtain ⟨s, hs, rfl⟩ := Option.map_eq_some_iff.mp hr
    obtain ⟨hurl, hpaths⟩ := hplain.sources e he s hs
    refine ⟨hurl, fun op ↦ ?_⟩
    have hroute : (Remote.ofSource (.ofEntity e.name) s).routes.ofOperation op =
        (s.endpoints.ofOperation op).getD ((Routes.ofEntity e.name).ofOperation op) := by
      cases op <;> rfl
    change OnOneLine ((Remote.ofSource (.ofEntity e.name) s).routes.ofOperation op).toList
    rw [hroute]
    cases hpath : s.endpoints.ofOperation op with
    | none => exact (isBare_routes hpascal op).onOneLine
    | some path => exact hpaths op path hpath

end

/-- The locales of a manifest with plain names are on one line each. -/
theorem oneLine_locales (hplain : m.PlainInModules) :
    OnOneLine (Blueprint.ofManifest m).locales.default.toList ∧
      ∀ s ∈ (Blueprint.ofManifest m).locales.all, OnOneLine s.toList := by
  have hen : OnOneLine defaultLocaleName.toList := ⟨by decide, by decide⟩
  have hdefault : OnOneLine (Blueprint.ofManifest m).locales.default.toList := by
    change OnOneLine ((m.i18n.bind Localization.defaultLocale).getD defaultLocaleName).toList
    cases hlocales : m.i18n.bind Localization.defaultLocale with
    | none => exact hen
    | some s =>
        obtain ⟨l, hl, hs⟩ := Option.bind_eq_some_iff.mp hlocales
        exact (hplain.locales l hl).1 s hs
  refine ⟨hdefault, fun s hs ↦ ?_⟩
  change s ∈ (Localization.normalize m.i18n).locales at hs
  rw [Localization.normalize] at hs
  split at hs
  · rw [List.mem_singleton.mp hs]
    exact hdefault
  · cases hlocales : m.i18n with
    | none => simp [hlocales] at hs
    | some l => exact (hplain.locales l hlocales).2 s (by simpa [hlocales] using hs)

/-- The index of a valid manifest with plain names can be read. -/
theorem readable_indexModule [Pattern.Checker] (hvalid : m.validate.valid = true)
    (hplain : m.PlainInModules) :
    (IndexModule.ofBlueprint (.ofManifest m)).Readable where
  modules := by
    intro module hmodule
    obtain ⟨r, hr, rfl⟩ := List.mem_map.mp hmodule
    rw [records_ofManifest] at hr
    obtain ⟨e, he, rfl⟩ := List.mem_map.mp hr
    have hpascal : isPascal e.name = true := isPascal_of_valid hvalid (List.mem_map_of_mem he)
    exact isBare_append.mpr ⟨by simp [IsBare],
      isBare_of_isName (isName_snake (isName_of_isPascal hpascal))⟩
  providers := by
    have hsettings := (m.valid_iff.mp hvalid).2.2.2.1
    simp only [configuration, List.append_eq_nil_iff] at hsettings
    have hsupported := providers_eq_nil_iff.mp hsettings.1.1.1.2 _ rfl
    have honeLine : ∀ s ∈ Auth.supportedProviders, OnOneLine s.toList := by
      simp [Auth.supportedProviders, OnOneLine]
    exact fun s hs ↦ honeLine s (hsupported s hs)
  locale := (oneLine_locales hplain).1
  locales := (oneLine_locales hplain).2
  tenant := by
    intro field hfield
    rw [tenantField_ofManifest] at hfield
    exact onOneLine_of_isIdentifier (hplain.tenant field hfield)

end Manifest

/-! ## Blueprints that can be read -/

structure Blueprint.Readable (b : Blueprint) : Prop where
  index : (IndexModule.ofBlueprint b).Readable
  entities : ∀ r ∈ b.records, (EntityModule.ofRecord b.tenant r).Readable
  named : ∀ r ∈ b.records, r.WellNamed
  /-- Records share the key of their calls only if they share their routes. -/
  routes : ∀ r ∈ b.records, ∀ s ∈ b.records, camel s.plural = camel r.plural → s.routes = r.routes

namespace Manifest

variable [Pattern.Checker] {m : Manifest} (hvalid : m.validate.valid = true)

include hvalid

theorem wellNamed_of_valid : ∀ r ∈ (Blueprint.ofManifest m).records, r.WellNamed := by
  rw [records_ofManifest]
  refine List.forall_mem_map.mpr fun e he ↦ ?_
  have hpascal : isPascal e.name = true := isPascal_of_valid hvalid (List.mem_map_of_mem he)
  exact Record.wellNamed_ofEntity hpascal

/-- All modules of a valid manifest with plain names can be read. -/
theorem readable_blueprint (hplain : m.PlainInModules) : (Blueprint.ofManifest m).Readable := by
  have hpascal (e : Entity) (he : e ∈ m.entities) : isPascal e.name = true :=
    isPascal_of_valid hvalid (List.mem_map_of_mem he)
  have hrecords {P : Record → Prop}
      (h : ∀ e ∈ m.entities, P (.ofEntity (e.normalize m.defaults m.source))) :
      ∀ r ∈ (Blueprint.ofManifest m).records, P r := by
    rw [records_ofManifest]
    exact List.forall_mem_map.mpr h
  refine ⟨readable_indexModule hvalid hplain,
    hrecords fun e he ↦ readable_moduleFor hvalid hplain.toPlainInEntities he,
    wellNamed_of_valid hvalid,
    hrecords fun e he ↦ hrecords fun f hf heq ↦ ?_⟩
  have hplural : pluralOf f.name = pluralOf e.name :=
    (camel_pluralOf_inj (hpascal f hf) (hpascal e he)).mp heq
  change Routes.ofEntity f.name = Routes.ofEntity e.name
  rw [Routes.ofEntity, Routes.ofEntity, hplural]

end Manifest

end Scaffold

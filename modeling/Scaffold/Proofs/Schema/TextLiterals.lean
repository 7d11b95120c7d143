import Scaffold.Proofs.Artifact.Quoting
import Scaffold.Proofs.Schema.EnumDefaults
import Scaffold.Proofs.Schema.StoredColumns

/-!
# Texts in the schema

In a schema script a text is written in quotes, with the quotes inside of it doubled.  That is how
all databases read it, but one of them takes a backslash for the start of an escape as well, and
backslashes are written as they are.  So there a text comes back exactly if each of its backslashes
is in front of a wildcard, where a backslash stays.
-/

namespace Scaffold.Sql

/-! ## Reading literals -/

/-- What a backslash and the character behind it stand for where backslashes are special. -/
def unescape : Char → List Char
  | '0' => ['\x00']
  | 'b' => ['\x08']
  | 'n' => ['\n']
  | 'r' => ['\r']
  | 't' => ['\t']
  | 'Z' => ['\x1a']
  | '%' => ['\\', '%']
  | '_' => ['\\', '_']
  | c => [c]

/-- Reads a text behind its opening quote, as far as the closing one. -/
def readBody (slashes : Bool) : List Char → Option (List Char × List Char)
  | [] => none
  | [c] => if c = '\x27' then some ([], []) else none
  | c :: d :: rest =>
      if c = '\x27' then
        if d = '\x27' then (readBody slashes rest).map (prepend ['\x27']) else some ([], d :: rest)
      else if slashes = true ∧ c = '\\' then (readBody slashes rest).map (prepend (unescape d))
      else (readBody slashes (d :: rest)).map (prepend [c])

/-- Every backslash is directly in front of a wildcard. -/
def SlashesKept : List Char → Prop
  | [] => True
  | c :: cs => (c = '\\' → cs.head? = some '%' ∨ cs.head? = some '_') ∧ SlashesKept cs

theorem slashesKept_cons_of_ne {c : Char} (h : c ≠ '\\') {cs : List Char} :
    SlashesKept (c :: cs) ↔ SlashesKept cs := by
  simp [SlashesKept, h]

section

variable {slashes : Bool} {content rest : List Char}

theorem readBody_doubled (cs : List Char) :
    readBody slashes ('\x27' :: '\x27' :: cs) = (readBody slashes cs).map (prepend ['\x27']) := by
  simp [readBody]

theorem readBody_close (h : ∀ c ∈ rest.head?, c ≠ '\x27') :
    readBody slashes ('\x27' :: rest) = some ([], rest) := by
  cases rest with
  | nil => rfl
  | cons c rest => simp [readBody, h c rfl]

theorem readBody_slash (c : Char) (cs : List Char) :
    readBody true ('\\' :: c :: cs) = (readBody true cs).map (prepend (unescape c)) := by
  simp [readBody]

theorem readBody_plain {c : Char} (hquote : c ≠ '\x27') (hslash : ¬ (slashes = true ∧ c = '\\'))
    {cs : List Char} (hcs : cs ≠ []) :
    readBody slashes (c :: cs) = (readBody slashes cs).map (prepend [c]) := by
  obtain ⟨d, cs, rfl⟩ := List.exists_cons_of_ne_nil hcs
  rw [readBody, if_neg hquote, if_neg hslash]

theorem escapeText_append (cs ds : List Char) :
    escapeText (cs ++ ds) = escapeText cs ++ escapeText ds := by
  induction cs with
  | nil => rfl
  | cons c cs ih =>
      rw [List.cons_append, escapeText, escapeText, ih]
      split <;> rfl

theorem length_escapeText_singleton_le (c : Char) : (escapeText [c]).length ≤ 2 := by
  rw [escapeText]
  split <;> simp [escapeText]

theorem length_escapeText_unescape_le (c : Char) : (escapeText (unescape c)).length ≤ 2 := by
  unfold unescape
  split
  case h_9 => exact length_escapeText_singleton_le c
  all_goals decide

theorem length_escapeText_of_map {o : Option (List Char × List Char)} {cs : List Char} {length : ℕ}
    (ho : ∀ {content}, o = some (content, rest) →
      (escapeText content).length + 1 + rest.length ≤ length)
    (h : o.map (prepend cs) = some (content, rest)) :
    (escapeText content).length + 1 + rest.length ≤ (escapeText cs).length + length := by
  obtain ⟨⟨read, more⟩, hread, heq⟩ := Option.map_eq_some_iff.mp h
  obtain ⟨rfl, rfl⟩ : cs ++ read = content ∧ more = rest := Prod.ext_iff.mp heq
  have hlength := ho hread
  rw [escapeText_append, List.length_append]
  omega

/-- To write what has been read takes no more than what it has been read from. -/
theorem length_escapeText_le {text : List Char}
    (h : readBody slashes text = some (content, rest)) :
    (escapeText content).length + 1 + rest.length ≤ text.length := by
  fun_induction readBody slashes text generalizing content with
  | case1 => cases h
  | case2 => cases h; simp [escapeText]
  | case3 => cases h
  | case4 tail ih =>
      have hlength := length_escapeText_of_map ih h
      simp only [escapeText, if_true, List.length_cons, List.length_nil] at hlength ⊢
      omega
  | case5 =>
      cases h
      simp only [escapeText, List.length_cons, List.length_nil]
      omega
  | case6 c d tail hquote hslash ih =>
      have hlength := length_escapeText_of_map ih h
      have hunescape := length_escapeText_unescape_le d
      simp only [List.length_cons]
      omega
  | case7 c d tail hquote hslash ih =>
      have hlength := length_escapeText_of_map ih h
      simp only [escapeText, if_neg hquote, List.length_cons, List.length_nil] at hlength ⊢
      omega

end

/-! ## Reading what is written -/

theorem eq_of_head_unescape {c : Char} (h : (unescape c).head? = some '\\') :
    c = '\\' ∨ c = '%' ∨ c = '_' := by
  unfold unescape at h
  split at h <;> simp_all

theorem unescape_ne_nil (c : Char) : unescape c ≠ [] := by
  unfold unescape
  split <;> simp

theorem head?_of_map_prepend {o : Option (List Char × List Char)} {cs content rest : List Char}
    (hcs : cs ≠ []) {c : Char} (h : o.map (prepend cs) = some (c :: content, rest)) :
    cs.head? = some c := by
  obtain ⟨⟨read, more⟩, -, heq⟩ := Option.map_eq_some_iff.mp h
  have happend : cs ++ read = c :: content := congrArg Prod.fst heq
  rw [← List.head?_append_of_ne_nil cs hcs, happend, List.head?_cons]

theorem exists_escapeText_cons (c : Char) (s : List Char) :
    ∃ more, escapeText (c :: s) = c :: more ∧ (c = '\\' → more = escapeText s) := by
  rw [escapeText]
  split
  · next hquote =>
      refine ⟨_, by rw [hquote], fun hslash ↦ ?_⟩
      exact absurd (hquote.symm.trans hslash) (by decide)
  · exact ⟨_, rfl, fun _ ↦ rfl⟩

/-- Behind a backslash the reader takes the next character with it.  Only a wildcard leaves the
backslash where it was; another backslash does not, since then there is one too few. -/
theorem readBody_slash_iff {s rest : List Char}
    (ih : readBody true (escapeText s ++ '\x27' :: rest) = some (s, rest) ↔ SlashesKept s) :
    readBody true ('\\' :: (escapeText s ++ '\x27' :: rest)) = some ('\\' :: s, rest) ↔
      SlashesKept ('\\' :: s) := by
  cases s with
  | nil =>
      -- the backslash takes the closing quote with it
      refine iff_of_false (fun h ↦ ?_) (by simp [SlashesKept])
      have hread := (readBody_slash '\x27' rest).symm.trans h
      exact absurd (head?_of_map_prepend (unescape_ne_nil '\x27') hread) (by decide)
  | cons c s =>
      by_cases hwild : c = '%' ∨ c = '_'
      · have hquote : c ≠ '\x27' := by rintro rfl; revert hwild; decide
        have hslash : c ≠ '\\' := by rintro rfl; revert hwild; decide
        have hunescape : unescape c = ['\\', c] := by rcases hwild with rfl | rfl <;> rfl
        have hread : readBody true ('\\' :: (escapeText (c :: s) ++ '\x27' :: rest)) =
            (readBody true (escapeText (c :: s) ++ '\x27' :: rest)).map (prepend ['\\']) := by
          rw [escapeText, if_neg hquote, List.cons_append, readBody_slash,
            readBody_plain hquote (by simp [hslash]) (by simp), Option.map_map, hunescape]
          rfl
        have hkept : SlashesKept ('\\' :: c :: s) ↔ SlashesKept (c :: s) := by
          simpa [SlashesKept] using fun _ _ ↦ hwild
        rw [hread, hkept, ← ih]
        exact map_prepend_eq_some_iff
      · refine iff_of_false (fun h ↦ ?_) fun h ↦ hwild (by simpa [SlashesKept] using h.1)
        obtain ⟨more, hmore, hslash⟩ := exists_escapeText_cons c s
        rw [hmore, List.cons_append, readBody_slash] at h
        have hhead := head?_of_map_prepend (unescape_ne_nil c) h
        obtain rfl : c = '\\' := (eq_of_head_unescape hhead).resolve_right hwild
        -- what is read is shorter than what is left to be written
        rw [hslash rfl] at h
        have hlength := length_escapeText_le (map_prepend_eq_some_iff.mp h)
        rw [escapeText, if_neg (by decide)] at hlength
        simp only [List.length_cons, List.length_append] at hlength
        omega

/-- Where backslashes are nothing special every text is read back, and where they are, those are
that have none but in front of wildcards. -/
theorem readBody_escapeText_iff (slashes : Bool) {rest : List Char}
    (hrest : ∀ c ∈ rest.head?, c ≠ '\x27') (s : List Char) :
    readBody slashes (escapeText s ++ '\x27' :: rest) = some (s, rest) ↔
      (slashes = true → SlashesKept s) := by
  induction s with
  | nil => simp [escapeText, readBody_close hrest, SlashesKept]
  | cons x s ih =>
      by_cases hquote : x = '\x27'
      · subst hquote
        rw [escapeText, if_pos rfl, List.cons_append, List.cons_append, readBody_doubled,
          slashesKept_cons_of_ne (by decide), ← ih]
        exact map_prepend_eq_some_iff
      · rw [escapeText, if_neg hquote, List.cons_append]
        by_cases hslash : slashes = true ∧ x = '\\'
        · obtain ⟨rfl, rfl⟩ := hslash
          simp only [true_imp_iff] at ih ⊢
          exact readBody_slash_iff ih
        · have hkept : (slashes = true → SlashesKept (x :: s)) ↔ (slashes = true → SlashesKept s) :=
            imp_congr_right fun hslashes ↦ slashesKept_cons_of_ne fun hx ↦ hslash ⟨hslashes, hx⟩
          rw [readBody_plain hquote hslash (by simp), hkept, ← ih]
          exact map_prepend_eq_some_iff

def quoting (dialect : DatabaseKind) : Quoting where
  write := quoteText
  read := readQuoted (readBody (dialect == .mysql))
  Safe s := dialect = .mysql → SlashesKept s.toList
  read_write_iff {s rest} hrest := by
    obtain ⟨c, hc, hne⟩ := hrest
    have hplain : ∀ d ∈ rest.toList.head?, d ≠ '\x27' := by
      intro d hd
      rwa [Option.mem_unique hd hc]
    rw [quoteText, readQuoted_eq_some_iff, readBody_escapeText_iff _ hplain, beq_iff_eq]

/-! ## Literals of columns -/

namespace Column

def flags (c : Column) : List String :=
  (if c.isPrimaryKey then [" PRIMARY KEY"] else []) ++
    (if c.isNotNull then [" NOT NULL"] else []) ++ if c.isUnique then [" UNIQUE"] else []

def defaultClauses (dialect : DatabaseKind) (c : Column) : List String :=
  match c.default with
  | some (.literal value) => [" DEFAULT " ++ literal dialect value]
  | some .currentTimestamp => [" DEFAULT CURRENT_TIMESTAMP"]
  | none => []

def valuesClauses (c : Column) : List String :=
  match c.values with
  | some values => [s!" CHECK ({c.name} IN (" ++ ", ".intercalate (values.map quoteText) ++ "))"]
  | none => []

def referenceClauses (c : Column) : List String :=
  match c.references with
  | some table => [s!" REFERENCES {table} (id)"]
  | none => []

theorem clauses_eq (dialect : DatabaseKind) (c : Column) :
    c.clauses dialect =
      c.flags ++ c.defaultClauses dialect ++ c.valuesClauses ++ c.referenceClauses := rfl

def beforeDefault (c : Column) : String :=
  c.name ++ " " ++ c.type ++ String.join c.flags ++ " DEFAULT "

def beforeValues (dialect : DatabaseKind) (c : Column) : String :=
  c.name ++ " " ++ c.type ++ String.join (c.flags ++ c.defaultClauses dialect) ++
    s!" CHECK ({c.name} IN ("

end Column

def Table.statement (dialect : DatabaseKind) (t : Table) : List String :=
  s!"CREATE TABLE {t.name} (" ::
    ((Table.commaSeparated (t.lines dialect)).map ("  " ++ ·) ++ [");"])

theorem hasLines_statement (dialect : DatabaseKind) (heading : String) {ts : List Table}
    {t : Table} (ht : t ∈ ts) : HasLines (render dialect heading ts) (t.statement dialect) := by
  obtain ⟨earlier, later, rfl⟩ := List.append_of_mem ht
  rw [render_eq_unlines]
  refine hasLines_unlines ⟨["-- " ++ heading] ++ (earlier.flatMap fun t ↦ "" :: t.statement dialect)
    ++ [""], later.flatMap fun t ↦ "" :: t.statement dialect, ?_⟩
  simp [Table.statement]

theorem exists_mem_statement (dialect : DatabaseKind) {t : Table} {c : Column}
    (hc : c ∈ t.columns) :
    ∃ comma, (comma = "" ∨ comma = ",") ∧ "  " ++ (c.render dialect ++ comma) ∈
      (Table.commaSeparated (t.lines dialect)).map ("  " ++ ·) ++ [");"] := by
  have hline : c.render dialect ∈ t.lines dialect :=
    List.mem_append_left _ (List.mem_map_of_mem hc)
  rcases mem_commaSeparated hline with hmem | hmem
  · refine ⟨"", .inl rfl, List.mem_append_left _ ?_⟩
    rw [String.append_empty]
    exact List.mem_map_of_mem hmem
  · exact ⟨",", .inr rfl, List.mem_append_left _ (List.mem_map_of_mem hmem)⟩

theorem opensPlain_clauses {clauses : List String} (h : ∀ clause ∈ clauses, OpensPlain clause)
    {comma : String} (hcomma : comma = "" ∨ comma = ",") :
    OpensPlain (String.join clauses ++ comma ++ "\n") := by
  cases clauses with
  | nil => rcases hcomma with rfl | rfl <;> exact ⟨_, rfl, by decide⟩
  | cons clause clauses =>
      rw [String.join_cons]
      exact (((h clause List.mem_cons_self).append _).append _).append _

theorem opensPlain_valuesClauses (c : Column) : ∀ clause ∈ c.valuesClauses, OpensPlain clause := by
  intro clause hclause
  unfold Column.valuesClauses at hclause
  split at hclause
  · have hcheck : OpensPlain " CHECK (" := ⟨' ', rfl, by decide⟩
    rw [List.mem_singleton.mp hclause]
    exact (((hcheck.append _).append _).append _).append _
  · cases hclause

theorem opensPlain_referenceClauses (c : Column) :
    ∀ clause ∈ c.referenceClauses, OpensPlain clause := by
  intro clause hclause
  unfold Column.referenceClauses at hclause
  split at hclause
  · have hreferences : OpensPlain " REFERENCES " := ⟨' ', rfl, by decide⟩
    rw [List.mem_singleton.mp hclause]
    exact (hreferences.append _).append _
  · cases hclause

section

variable {dialect : DatabaseKind} {ts : List Table} {t : Table} {c : Column}

/-- The script carries the values of a column where it checks for them. -/
theorem carriesAll_values (heading : String) (ht : t ∈ ts) (hc : c ∈ t.columns)
    {values : List String} (hvalues : c.values = some values) :
    (quoting dialect).CarriesAll (render dialect heading ts) (unlines (t.statement dialect))
      ("\n  " ++ c.beforeValues dialect) ", " values := by
  have hlines := hasLines_statement dialect heading ht
  obtain ⟨comma, -, hmem⟩ := exists_mem_statement dialect hc
  have hclauses : c.valuesClauses =
      [s!" CHECK ({c.name} IN (" ++ ", ".intercalate (values.map quoteText) ++ "))"] := by
    rw [Column.valuesClauses, hvalues]
  have hitem : c.render dialect ++ comma = c.beforeValues dialect ++
      ", ".intercalate (values.map (quoting dialect).write) ++
        ("))" ++ (String.join c.referenceClauses ++ comma)) := by
    rw [Column.render, Column.clauses_eq, hclauses, Column.beforeValues, String.join_append,
      String.join_append]
    simp only [String.join_cons, String.join_nil, String.append_empty, String.append_assoc]
    rfl
  have hclose : OpensPlain "))" := ⟨')', rfl, by decide⟩
  exact Quoting.carriesAll_of_mem hlines hmem hitem (fun _ ↦ ⟨',', rfl, by decide⟩)
    ((hclose.append _).append _)

/-- The script carries the text of a default behind the column. -/
theorem carries_default (heading : String) (ht : t ∈ ts) (hc : c ∈ t.columns) {s : String}
    (hdefault : c.default = some (.literal (.text s))) :
    (quoting dialect).Carries (render dialect heading ts) (unlines (t.statement dialect))
      ("\n  " ++ c.beforeDefault) s := by
  have hlines := hasLines_statement dialect heading ht
  obtain ⟨comma, hcomma, hmem⟩ := exists_mem_statement dialect hc
  have hclauses : c.defaultClauses dialect = [" DEFAULT " ++ quoteText s] := by
    rw [Column.defaultClauses, hdefault]
    rfl
  have hitem : c.render dialect ++ comma = c.beforeDefault ++
      (quoting dialect).write s ++
        (String.join (c.valuesClauses ++ c.referenceClauses) ++ comma) := by
    rw [Column.render, Column.clauses_eq, hclauses, Column.beforeDefault, List.append_assoc,
      String.join_append, String.join_append]
    simp only [String.join_cons, String.join_nil, String.append_empty, String.append_assoc]
    rfl
  exact Quoting.carries_of_mem hlines hmem hitem (opensPlain_clauses
    (List.forall_mem_append.mpr ⟨opensPlain_valuesClauses c, opensPlain_referenceClauses c⟩) hcomma)

end

/-- Whether a script carries the texts of a field, both the values that it is limited to and its
default, on the line of its column in a table. -/
structure CarriesField (dialect : DatabaseKind) (script : String) (t : Table) (name : String)
    (f : Field) : Prop where
  values : ∀ values, f.kind = .enum values → ∃ c ∈ t.columns, c.name = columnOf name ∧
    (quoting dialect).CarriesAll script (unlines (t.statement dialect))
      ("\n  " ++ c.beforeValues dialect) ", " values
  default : ∀ s, f.default = some (.text s) → ∃ c ∈ t.columns, c.name = columnOf name ∧
    (quoting dialect).Carries script (unlines (t.statement dialect)) ("\n  " ++ c.beforeDefault) s

theorem carriesField_of_mem {dialect : DatabaseKind} (heading : String) {ts : List Table}
    {t : Table} (ht : t ∈ ts) {a : Attribute} (ha : attributeColumn dialect a ∈ t.columns)
    {name : String} {f : Field} (hname : a.column = columnOf name) (hkind : a.kind = f.kind)
    (hdefault : ∀ s, f.default = some (.text s) → a.default = some (.text s)) :
    CarriesField dialect (render dialect heading ts) t name f where
  values := by
    intro values hvalues
    refine ⟨_, ha, hname, carriesAll_values heading ht ha ?_⟩
    exact (values_attributeColumn dialect a values).mpr (hkind.trans hvalues)
  default := by
    intro s hs
    refine ⟨_, ha, hname, carries_default heading ht ha ?_⟩
    rw [attributeColumn, hdefault s hs]
    rfl

end Scaffold.Sql

/-! ## The fields of a valid manifest -/

namespace Scaffold

open Sql Lint

theorem Field.default_text_of_beq {f g : Field} (h : (f == g) = true) {s : String}
    (hs : g.default = some (.text s)) : f.default = some (.text s) := by
  have hdefault := (Field.agree_of_beq h).2
  rw [hs] at hdefault
  cases hvalue : f.default with
  | none => simp [hvalue] at hdefault
  | some value =>
      rw [hvalue, Option.some_beq_some, Literal.beq_eq] at hdefault
      cases value <;> simp_all [Literal.parts, beq_pair]

namespace Manifest

variable {m : Manifest}

theorem default_eq_none_of_computed [Pattern.Checker] (hvalid : m.validate.valid = true)
    {e : Entity} (he : e ∈ m.entities) {f : String × Field} (hf : f ∈ e.fields.entries)
    (hcomputed : f.2.isComputed = true) : f.2.default = none := by
  have hplaced : ⟨⟨.entity e.name, f.1⟩, normalizeFields e.fields, f.2.normalize⟩ ∈
      m.normalize.placedFields :=
    List.mem_flatMap.mpr ⟨_, List.mem_map_of_mem he, List.mem_append_left _
      (List.mem_map.mpr ⟨_, List.mem_map_of_mem hf, rfl⟩)⟩
  refine Option.eq_none_iff_forall_ne_some.mpr fun value hvalue ↦ ?_
  have hsuits : value.Suits f.2.kind := (sound_of_valid hvalid _ hplaced).default value hvalue
  cases hkind : f.2.kind with
  | computed => rwa [hkind] at hsuits
  | _ => simp [Field.isComputed, hkind, FieldKind.isComputed] at hcomputed

/-- The script carries the texts of the fields of an entity in its table. -/
theorem carriesField_of_mem_fields [Pattern.Checker] (hvalid : m.validate.valid = true)
    (dialect : DatabaseKind) (heading : String) {e : Entity} (he : e ∈ m.entities)
    {f : String × Field} (hf : f ∈ e.fields.entries) :
    CarriesField dialect (Sql.render dialect heading (tables dialect (.ofManifest m)))
      (m.tableFor dialect e) f.1 f.2 := by
  by_cases hcomputed : f.2.isComputed = true
  -- a computed field has no column, but no texts either
  · refine ⟨fun values hvalues ↦ ?_, fun s hs ↦ ?_⟩
    · simp [Field.isComputed, hvalues, FieldKind.isComputed] at hcomputed
    · simp [default_eq_none_of_computed hvalid he hf hcomputed] at hs
  · have hstored : Attribute.ofField f.1 f.2.normalize ∈
        (Record.ofEntity (e.normalize m.defaults m.source)).stored := by
      rw [stored_ofEntity_normalize]
      exact List.mem_map.mpr ⟨f, List.mem_filter.mpr ⟨hf, by simpa using hcomputed⟩, rfl⟩
    have hcolumn : attributeColumn dialect (Attribute.ofField f.1 f.2.normalize) ∈
        (m.tableFor dialect e).columns := by
      simp only [tableFor, recordTable, recordColumns, List.mem_append]
      exact .inl (.inl (.inl (.inr (List.mem_map_of_mem hstored))))
    exact carriesField_of_mem heading (tableFor_mem_tables he dialect) hcolumn rfl rfl fun _ hs ↦ hs

/-- The script carries the texts of pivot fields in a table of their junction. -/
theorem exists_carriesField_of_mem_pivot [Pattern.Checker] (hvalid : m.validate.valid = true)
    (dialect : DatabaseKind) (heading : String) {r : OwnedRelation} (hr : r ∈ ownedRelations m)
    {pivot : Pivot} (hpivot : pivot ∈ r.relation.pivot) {f : String × Field}
    (hf : f ∈ pivot.fields.entries) :
    ∃ t ∈ tables dialect (.ofManifest m), t.name = r.junction ∧
      CarriesField dialect (Sql.render dialect heading (tables dialect (.ofManifest m)))
        t f.1 f.2 := by
  obtain ⟨-, -, hrelations, -⟩ := m.valid_iff.mp hvalid
  have hr' : r.normalize ∈ ownedRelations m.normalize := by
    rw [ownedRelations_normalize]
    exact List.mem_map_of_mem hr
  have hpivot' : pivot.normalize ∈ r.normalize.relation.pivot := Option.mem_map_of_mem _ hpivot
  have hkind : r.normalize.relation.kind = .belongsToMany := by
    have hplaced := (((relations_eq_nil_iff _).mp hrelations).1 _ hr').2
    simpa [OwnedRelation.hasMisplacedPivot, Option.mem_def.mp hpivot'] using hplaced
  have hdeclared : r.normalize.declaration (f.1, f.2.normalize) ∈ pivotFields m.normalize :=
    mem_pivotFields.mpr ⟨_, mem_manyToMany.mpr ⟨hr', hkind⟩, _, hpivot', _,
      List.mem_map_of_mem hf, rfl⟩
  -- the column may be made from another declaration of the field, but that has the same texts
  obtain ⟨j, hfilter, q, hq, hfield, hsame⟩ := exists_mem_attributes hrelations hdeclared
  obtain ⟨hj, hname⟩ := List.mem_filter.mp (hfilter ▸ List.mem_singleton_self j)
  have ht : junctionTable dialect (.ofManifest m) j ∈ tables dialect (.ofManifest m) :=
    List.mem_append_left _ (List.mem_append_right _ (List.mem_map_of_mem hj))
  refine ⟨_, ht, (beq_iff_eq.mp hname).trans
    (OwnedRelation.junctionName_normalize r.relation r.owner), ?_⟩
  have hcolumn : attributeColumn dialect q.attribute ∈
      (junctionTable dialect (.ofManifest m) j).columns :=
    List.mem_append_right _ (List.mem_map_of_mem hq)
  have hkind : q.attribute.kind = f.2.kind := by
    rcases hsame with rfl | hbeq
    · rfl
    · exact (Field.agree_of_beq hbeq).1.trans rfl
  refine carriesField_of_mem heading ht hcolumn (congrArg columnOf hfield) hkind fun s hs ↦ ?_
  rcases hsame with rfl | hbeq
  · exact hs
  · exact Field.default_text_of_beq hbeq hs

end Manifest

end Scaffold

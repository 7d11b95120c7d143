import Scaffold.Proofs.Artifact.Outline
import Scaffold.Proofs.Json.Doubles
import Scaffold.Proofs.Schema.TextLiterals

/-!
# Reading a schema script

A database makes out the statements of a script, the columns of each table, and the clauses of each
column.  What is read from a written script are the tables that it was written from, as long as
their names are identifiers and their texts come back.
-/

namespace Scaffold.Sql

/-! ## The language -/

/-- Letters of words.  Numbers are words too, and so a point is a letter. -/
def isLetter (c : Char) : Bool := c.isAlphanum || c = '_' || c = '.' || 128 ≤ c.toNat

/-- What follows a literal does not change how it is read. -/
theorem readBody_append {slashes : Bool} {cs content : List Char}
    (h : readBody slashes cs = some (content, [])) {c : Char} (hc : c ≠ '\x27') (more : List Char) :
    readBody slashes (cs ++ c :: more) = some (content, c :: more) := by
  fun_induction readBody slashes cs generalizing content with
  | case1 => cases h
  | case2 =>
      cases h
      exact readBody_close (by simpa using hc)
  | case3 => cases h
  | case4 tail ih => exact (readBody_doubled _).trans (map_prepend_append ih h)
  | case5 => cases h
  | case6 d e tail hquote hslash ih =>
      obtain ⟨rfl, rfl⟩ := hslash
      exact (readBody_slash _ _).trans (map_prepend_append ih h)
  | case7 d e tail hquote hslash ih =>
      exact (readBody_plain hquote hslash (by simp)).trans (map_prepend_append ih h)

def language (dialect : DatabaseKind) : Language where
  isLetter := isLetter
  isMark c := "(),;-".toList.contains c
  isQuote c := c = '\x27'
  isBlank_stops c hc := by
    simp only [isBlank, Bool.or_eq_true, decide_eq_true_eq] at hc
    rcases hc with ((rfl | rfl) | rfl) | rfl <;> decide
  dash := '-'
  isLineEnd c := c = '\n'
  doubles := true
  literal quote cs :=
    if quote = '\x27' then (readBody (dialect == .mysql) cs).map (asToken .text) else none
  literal_append {quote cs t} h c hc more := by
    split at h
    · next hquote =>
        have hne : c ≠ '\x27' := fun heq ↦ hc ⟨rfl, heq.trans hquote.symm⟩
        rw [if_pos hquote]
        exact map_asToken_append (readBody_append · hne more) h
    · cases h

theorem brackets (dialect : DatabaseKind) : (language dialect).Brackets '(' ')' where
  stops := ⟨rfl, rfl⟩
  opens _ := rfl
  closes _ _ _ := rfl

theorem reads_group {dialect : DatabaseKind} {code : String} {ps : List Piece}
    (h : (language dialect).Spells code ps) :
    (language dialect).Reads ("(" ++ code ++ ")") [.group '(' ps] :=
  (brackets dialect).reads rfl rfl h

def isIdentifier (name : String) : Bool :=
  name.toList.head?.any (!·.isDigit) && name.toList.all fun c ↦ isLetter c && c != '.'

/-! ## Statements -/

inductive Clause where
  | notNull
  /-- A check that a column has one of some values. -/
  | oneOf (column : String) (values : List String)
  | references (table : String)
deriving DecidableEq, Repr

structure ColumnDefinition where
  name : String
  clauses : List Clause
deriving DecidableEq, Repr

structure TableDefinition where
  name : String
  columns : List ColumnDefinition
deriving DecidableEq, Repr

def isKeyword (keyword : String) : Piece → Bool
  | .word w => w.toList.map Char.toUpper == keyword.toList
  | _ => false

def text? : List Piece → Option String
  | [.text s] => some s
  | _ => none

def texts? (ps : List Piece) : Option (List String) :=
  if ps.isEmpty then some [] else (splitAt ',' ps).mapM text?

def clauseAt (p : Piece) (rest : List Piece) : Option Clause :=
  match rest with
  | [] => none
  | next :: _ =>
      if isKeyword "NOT" p then if isKeyword "NULL" next then some .notNull else none
      else if isKeyword "REFERENCES" p then
        match next with
        | .word table => some (.references table)
        | _ => none
      else if isKeyword "CHECK" p then
        match next with
        | .group _ [.word column, test, .group _ values] =>
            if isKeyword "IN" test then (texts? values).map (.oneOf column) else none
        | _ => none
      else none

def clauses : List Piece → List Clause
  | [] => []
  | p :: rest => (clauseAt p rest).toList ++ clauses rest

def column? : List Piece → Option ColumnDefinition
  | .word name :: rest => if isIdentifier name then some ⟨name, clauses rest⟩ else none
  | _ => none

/-- Whether a part of a definition declares the key of the table. -/
def isKey : List Piece → Bool
  | [primary, key, .group _ _] => isKeyword "PRIMARY" primary && isKeyword "KEY" key
  | _ => false

def columns? (ps : List Piece) : Option (List ColumnDefinition) :=
  ((splitAt ',' ps).filter (!isKey ·)).mapM column?

def tables? : List Piece → Option (List TableDefinition)
  | [] => some []
  | create :: table :: .word name :: .group _ inner :: .mark ';' :: rest =>
      if isKeyword "CREATE" create && isKeyword "TABLE" table && isIdentifier name then
        (columns? inner).bind fun columns ↦ (tables? rest).map (⟨name, columns⟩ :: ·)
      else none
  | _ => none

/-- The tables that a script defines, if it is one that defines tables only. -/
def definitions (dialect : DatabaseKind) (script : String) : Option (List TableDefinition) :=
  ((language dialect).outline script).bind tables?

def Column.definition (c : Column) : ColumnDefinition where
  name := c.name
  clauses := (if c.isNotNull then [.notNull] else []) ++
    (c.values.map (Clause.oneOf c.name)).toList ++ (c.references.map Clause.references).toList

def Table.definition (t : Table) : TableDefinition := ⟨t.name, t.columns.map Column.definition⟩

/-! ## Clauses -/

/-- Whether code behind a name, or behind such code, adds clauses to a column. -/
def Adds (dialect : DatabaseKind) (code : String) (added : List Clause) : Prop :=
  ∃ ps, (language dialect).Spells code ps ∧ (language dialect).StopsAt code ∧ Lacks ',' ps ∧
    (∀ p ∈ ps.head?, isKeyword "KEY" p = false) ∧
    ∀ rest, clauses (ps ++ rest) = added ++ clauses rest

section

variable {dialect : DatabaseKind} {code more : String} {added others : List Clause}

theorem adds_nil : Adds dialect "" [] :=
  ⟨[], Language.reads_nil.spells, fun _ hc ↦ (nomatch hc), fun _ hp ↦ (nomatch hp),
    fun _ hp ↦ (nomatch hp), fun _ ↦ rfl⟩

theorem Adds.append (h : Adds dialect code added) (h' : Adds dialect more others) :
    Adds dialect (code ++ more) (added ++ others) := by
  obtain ⟨ps, hspells, hstops, hcomma, hkey, hclauses⟩ := h
  obtain ⟨qs, hspells', hstops', hcomma', hkey', hclauses'⟩ := h'
  refine ⟨ps ++ qs, hspells.append hstops' hspells', hstops.append hstops',
    lacks_append.mpr ⟨hcomma, hcomma'⟩, ?_, fun rest ↦ ?_⟩
  · cases ps with
    | nil => exact hkey'
    | cons p ps => exact hkey
  · rw [List.append_assoc, hclauses, hclauses', List.append_assoc]

/-- A piece that neither starts a clause nor divides columns. -/
def isInert (p : Piece) : Bool :=
  ["NOT", "REFERENCES", "CHECK", "KEY"].all (!isKeyword · p) && !p.isMark ','

theorem isInert_iff {p : Piece} : isInert p = true ↔
    (isKeyword "NOT" p = false ∧ isKeyword "REFERENCES" p = false ∧ isKeyword "CHECK" p = false ∧
      isKeyword "KEY" p = false) ∧ p.isMark ',' = false := by
  simp [isInert]

theorem clauses_inert {p : Piece} (h : isInert p = true) (rest : List Piece) :
    clauses (p :: rest) = clauses rest := by
  obtain ⟨⟨hnot, hreferences, hcheck, -⟩, -⟩ := isInert_iff.mp h
  have hnone : clauseAt p rest = none := by
    cases rest <;> simp [clauseAt, hnot, hreferences, hcheck]
  rw [clauses, hnone]
  rfl

theorem clauses_inert_append {ps : List Piece} (h : ∀ p ∈ ps, isInert p = true)
    (rest : List Piece) : clauses (ps ++ rest) = clauses rest := by
  induction ps with
  | nil => rfl
  | cons p ps ih =>
      obtain ⟨hp, hps⟩ := List.forall_mem_cons.mp h
      rw [List.cons_append, clauses_inert hp, ih hps]

/-- Whether code is read as pieces that say nothing about a column. -/
def Inert (dialect : DatabaseKind) (code : String) : Prop :=
  ∃ ps, (language dialect).Spells code ps ∧ ∀ p ∈ ps, isInert p = true

theorem Inert.adds {front : String} {ps : List Piece} (hfront : (language dialect).Reads front ps)
    (hps : ∀ p ∈ ps, isInert p = true) (hstops : (language dialect).StopsAt front)
    (hne : front ≠ "") (h : Inert dialect code) : Adds dialect (front ++ code) [] := by
  obtain ⟨qs, hspells, hqs⟩ := h
  have hall : ∀ p ∈ ps ++ qs, isInert p = true := List.forall_mem_append.mpr ⟨hps, hqs⟩
  refine ⟨ps ++ qs, hfront.append_spells hspells, Language.stopsAt_append hstops hne _,
    fun p hp ↦ ?_, fun p hp ↦ ?_, clauses_inert_append hall⟩
  · exact (isInert_iff.mp (hall p hp)).2
  · exact (isInert_iff.mp (hall p (List.mem_of_mem_head? hp))).1.2.2.2

end

/-! ## Names and values -/

section

variable {dialect : DatabaseKind}

theorem isWord_of_isIdentifier {name : String} (h : isIdentifier name = true) :
    (language dialect).IsWord name := by
  simp only [isIdentifier, Bool.and_eq_true, List.all_eq_true] at h
  refine ⟨?_, fun c hc ↦ (h.2 c hc).1⟩
  rintro rfl
  simp at h

theorem spells_quoteText {s : String} (h : (quoting dialect).Safe s) :
    (language dialect).Spells (quoteText s) [.text s] := by
  have hread : readBody (dialect == .mysql) (escapeText s.toList ++ ['\x27']) =
      some (s.toList, []) := by
    refine (readBody_escapeText_iff _ (by simp) _).mpr fun hslashes ↦ ?_
    exact h (beq_iff_eq.mp hslashes)
  have hliteral : (language dialect).literal '\x27' (escapeText s.toList ++ ['\x27']) =
      some (.text s, []) := by
    simp [language, hread, asToken]
  exact Language.spells_literal rfl rfl hliteral (by simp)

theorem inert_word {w : String} (h : (language dialect).IsWord w)
    (hinert : isInert (.word w) = true) : Inert dialect w :=
  ⟨_, Language.spells_word h, List.forall_mem_singleton.mpr hinert⟩

def IsNumeral (cs : List Char) : Prop :=
  (∃ c ∈ cs.head?, Json.isDigit c = true) ∧ ∀ c ∈ cs, Json.isDigit c = true ∨ c = '.'

theorem isLetter_of_isDigit {c : Char} (h : Json.isDigit c = true) : isLetter c = true := by
  have hdigit : c.isDigit = true := h
  simp [isLetter, Char.isAlphanum, hdigit]

theorem toUpper_of_isDigit {c : Char} (h : Json.isDigit c = true) : c.toUpper = c := by
  simp only [Json.isDigit, Bool.and_eq_true, decide_eq_true_eq, Char.le_def,
    UInt32.le_iff_toNat_le] at h
  refine dif_neg fun hsmall ↦ ?_
  simp only [UInt32.le_iff_toNat_le] at hsmall
  have hnine : '9'.val.toNat < 'a'.val.toNat := by decide
  omega

section

variable {w : String}

theorem isWord_of_isNumeral (h : IsNumeral w.toList) : (language dialect).IsWord w := by
  obtain ⟨⟨first, hfirst, -⟩, hall⟩ := h
  refine ⟨?_, fun c hc ↦ ?_⟩
  · rintro rfl
    cases hfirst
  · rcases hall c hc with hdigit | rfl
    · exact isLetter_of_isDigit hdigit
    · rfl

theorem isInert_of_isNumeral (h : IsNumeral w.toList) : isInert (.word w) = true := by
  obtain ⟨⟨c, hc, hdigit⟩, -⟩ := h
  obtain ⟨cs, hw⟩ := List.head?_eq_some_iff.mp hc
  have hkeyword (k : String) (hk : k.toList.head?.all (!Json.isDigit ·) = true) :
      isKeyword k (.word w) = false := by
    rw [isKeyword, hw, List.map_cons, toUpper_of_isDigit hdigit, Bool.eq_false_iff]
    intro heq
    rw [← beq_iff_eq.mp heq] at hk
    simp [hdigit] at hk
  exact isInert_iff.mpr ⟨⟨hkeyword _ rfl, hkeyword _ rfl, hkeyword _ rfl, hkeyword _ rfl⟩, rfl⟩

/-- A word with a sign in front contains no clause. -/
theorem inert_negative (h : (language dialect).IsWord w) (hinert : isInert (.word w) = true) :
    Inert dialect ("-" ++ w) := by
  refine ⟨[.mark '-', .word w], fun o c hc ↦ ?_,
    List.forall_mem_cons.mpr ⟨rfl, List.forall_mem_singleton.mpr hinert⟩⟩
  have hspells := Language.spells_word h (o.add (.mark '-')) c hc
  obtain ⟨hne, hletters⟩ := h
  obtain ⟨first, rest, hw⟩ := List.exists_cons_of_ne_nil
    (fun hnil ↦ hne (String.toList_eq_nil_iff.mp hnil) : w.toList ≠ [])
  -- the sign is complete as soon as a letter follows, which makes no comment of it
  have hfirst : first ≠ '-' := by
    rintro rfl
    have hdash : isLetter '-' = true := hletters '-' (by rw [hw]; exact List.mem_cons_self)
    cases hdash
  have hmark : (language dialect).isMark '-' = true := rfl
  have hsign : (language dialect).step ⟨o, .half '-'⟩ first =
      (language dialect).step ⟨o.add (.mark '-'), .free⟩ first := by
    simp [Language.step, hfirst, hmark]
  have hdash : (language dialect).step ⟨o, .free⟩ '-' = ⟨o, .half '-'⟩ := rfl
  rw [hw, List.cons_append, List.foldl_cons] at hspells
  rw [String.toList_append, hw, List.append_assoc, List.cons_append, List.foldl_append]
  change List.foldl _ ((language dialect).step ⟨o, .free⟩ '-') _ = _
  rw [hdash, List.foldl_cons, hsign, hspells]
  rfl

theorem inert_numeral (h : IsNumeral w.toList) (negative : Bool) :
    Inert dialect (if negative then "-" ++ w else w) := by
  cases negative with
  | true => exact inert_negative (isWord_of_isNumeral h) (isInert_of_isNumeral h)
  | false => exact inert_word (isWord_of_isNumeral h) (isInert_of_isNumeral h)

end

theorem isNumeral_of_digits {cs : List Char} (hne : cs ≠ [])
    (h : ∀ c ∈ cs, Json.isDigit c = true) : IsNumeral cs := by
  obtain ⟨c, ds, rfl⟩ := List.exists_cons_of_ne_nil hne
  exact ⟨⟨c, rfl, h c List.mem_cons_self⟩, fun d hd ↦ .inl (h d hd)⟩

theorem IsNumeral.append {cs ds : List Char} (h : IsNumeral cs)
    (hds : ∀ c ∈ ds, Json.isDigit c = true ∨ c = '.') : IsNumeral (cs ++ ds) := by
  obtain ⟨⟨c, hc, hdigit⟩, hcs⟩ := h
  refine ⟨⟨c, ?_, hdigit⟩, List.forall_mem_append.mpr ⟨hcs, hds⟩⟩
  rw [List.head?_append, Option.mem_def.mp hc]
  rfl

/-- Digits with a point or without one are a numeral. -/
theorem isNumeral_positional {digits : List Char} (hne : digits ≠ [])
    (h : ∀ c ∈ digits, Json.isDigit c = true) (exponent : Int) :
    IsNumeral (Layout.positional false digits exponent) := by
  cases exponent with
  | ofNat e =>
      have hzeros : ∀ c ∈ Layout.zeros e ++ [], Json.isDigit c = true ∨ c = '.' :=
        fun c hc ↦ .inl (Json.isDigit_of_mem_zeros (List.append_nil (Layout.zeros e) ▸ hc))
      rw [Layout.positional, List.append_assoc]
      exact (isNumeral_of_digits hne h).append hzeros
  | negSucc e =>
      simp only [Layout.positional]
      split
      · have hwhole : IsNumeral (digits.take (digits.length - (e + 1))) := by
          refine isNumeral_of_digits ?_ fun c hc ↦ h c (List.mem_of_mem_take hc)
          rw [Ne, List.take_eq_nil_iff, not_or]
          exact ⟨by omega, hne⟩
        exact hwhole.append (List.forall_mem_cons.mpr
          ⟨.inr rfl, fun c hc ↦ .inl (h c (List.mem_of_mem_drop hc))⟩)
      · have hzero : IsNumeral ['0'] := ⟨⟨'0', rfl, rfl⟩, List.forall_mem_singleton.mpr (.inl rfl)⟩
        refine hzero.append (List.forall_mem_cons.mpr ⟨.inr rfl, ?_⟩)
        exact List.forall_mem_append.mpr
          ⟨fun c hc ↦ .inl (Json.isDigit_of_mem_zeros hc), fun c hc ↦ .inl (h c hc)⟩

/-- The text of a double contains no clause. -/
theorem inert_write (x : Double) : Inert dialect (Layout.plain.write x) := by
  cases x with
  | nan => exact inert_word ⟨by decide, List.all_eq_true.mp rfl⟩ rfl
  | infinite negative =>
      cases negative with
      | true => exact @inert_negative dialect "inf" ⟨by decide, List.all_eq_true.mp rfl⟩ rfl
      | false => exact inert_word ⟨by decide, List.all_eq_true.mp rfl⟩ rfl
  | finite negative mantissa exponent =>
      let body := if mantissa = 0 then Layout.positional false ['0'] 0
        else Layout.plain.magnitudeText mantissa exponent
      have hbody : IsNumeral (String.ofList body).toList := by
        rw [String.toList_ofList]
        simp only [body]
        split
        · exact isNumeral_positional (by simp) (List.forall_mem_singleton.mpr rfl) 0
        · obtain ⟨hne, hdigits⟩ := Json.digits_digitsOf
            (Decimal.shortest Layout.plain.tie mantissa exponent).digits
          exact isNumeral_positional hne hdigits _
      have hinert := @inert_numeral dialect _ hbody negative
      cases negative with
      | true =>
          have hsign : String.ofList ('-' :: body) = "-" ++ String.ofList body := by
            apply String.toList_inj.mp
            simp
          change Inert dialect (String.ofList ('-' :: body))
          rw [hsign]
          exact hinert
      | false => exact hinert

theorem inert_repr (n : Nat) : Inert dialect n.repr ∧ Inert dialect ("-" ++ n.repr) := by
  have hdigits := Json.digits_digitsOf n
  have hnumeral : IsNumeral n.repr.toList := by
    rw [Nat.toList_repr]
    exact isNumeral_of_digits hdigits.1 hdigits.2
  exact ⟨inert_numeral hnumeral false, inert_numeral hnumeral true⟩

/-- A default with a safe text contains no clause. -/
theorem inert_literal {value : Literal} (h : ∀ s, value = .text s → (quoting dialect).Safe s) :
    Inert dialect (literal dialect value) := by
  cases value with
  | text s => exact ⟨_, spells_quoteText (h s rfl), List.forall_mem_singleton.mpr rfl⟩
  | integer i =>
      cases i with
      | ofNat n => exact (inert_repr n).1
      | negSucc n => exact (inert_repr (n + 1)).2
  | float x => exact inert_write x
  | flag b =>
      have hone : Inert dialect "1" := inert_word ⟨by decide, List.all_eq_true.mp rfl⟩ rfl
      have hzero : Inert dialect "0" := inert_word ⟨by decide, List.all_eq_true.mp rfl⟩ rfl
      have htrue : Inert dialect "TRUE" := inert_word ⟨by decide, List.all_eq_true.mp rfl⟩ rfl
      have hfalse : Inert dialect "FALSE" := inert_word ⟨by decide, List.all_eq_true.mp rfl⟩ rfl
      rw [literal]
      split <;> cases b <;> assumption

end

/-! ## Columns -/

/-- Whether a column has names that can be read as such, a type that says no more, and texts that
come back. -/
structure Column.Readable (dialect : DatabaseKind) (c : Column) : Prop where
  name : isIdentifier c.name = true
  type : Inert dialect c.type
  default : ∀ s, c.default = some (.literal (.text s)) → (quoting dialect).Safe s
  values : ∀ values, c.values = some values → ∀ s ∈ values, (quoting dialect).Safe s
  references : ∀ table, c.references = some table → isIdentifier table = true

section

variable {dialect : DatabaseKind} {c : Column}

/-- Code that begins with a blank. -/
theorem stopsAt_blank {code : String} (h : code.toList.head? = some ' ') :
    (language dialect).StopsAt code :=
  Language.stopsAt_of_head h ⟨rfl, rfl⟩

theorem adds_blank {code : String} (h : Inert dialect code) : Adds dialect (" " ++ code) [] := by
  have hblank : (language dialect).Reads " " [] := fun _ ↦ rfl
  exact h.adds hblank (List.forall_mem_nil _) (stopsAt_blank rfl) (by decide)

theorem join_singleton (s : String) : String.join [s] = s := by simp

/-- The flags of a column add that it may not be null, or nothing. -/
theorem adds_flags (c : Column) :
    Adds dialect (String.join c.flags) (if c.isNotNull then [.notNull] else []) := by
  have hflag {on : Bool} {flag : String} {added : List Clause} (h : Adds dialect flag added) :
      Adds dialect (String.join (if on then [flag] else [])) (if on then added else []) := by
    cases on
    · exact adds_nil
    · simpa using h
  have hkey : (language dialect).Spells " PRIMARY KEY" ([.word "PRIMARY"] ++ [.word "KEY"]) :=
    Language.spells_of_word fun _ ↦ rfl
  have hnull : (language dialect).Spells " NOT NULL" ([.word "NOT"] ++ [.word "NULL"]) :=
    Language.spells_of_word fun _ ↦ rfl
  have hunique : (language dialect).Spells " UNIQUE" ([] ++ [.word "UNIQUE"]) :=
    Language.spells_of_word fun _ ↦ rfl
  have hkey : Adds dialect " PRIMARY KEY" [] :=
    ⟨_, hkey, stopsAt_blank rfl, by simp [Lacks, Piece.isMark], by simp [isKeyword],
      fun rest ↦ by cases rest <;> rfl⟩
  have hnull : Adds dialect " NOT NULL" [.notNull] :=
    ⟨_, hnull, stopsAt_blank rfl, by simp [Lacks, Piece.isMark], by simp [isKeyword],
      fun rest ↦ by cases rest <;> rfl⟩
  have hunique : Adds dialect " UNIQUE" [] :=
    ⟨_, hunique, stopsAt_blank rfl, by simp [Lacks, Piece.isMark], by simp [isKeyword],
      fun rest ↦ by cases rest <;> rfl⟩
  have hall := ((@hflag c.isPrimaryKey _ _ hkey).append (@hflag c.isNotNull _ _ hnull)).append
    (@hflag c.isUnique _ _ hunique)
  simpa [Column.flags, String.append_assoc] using hall

/-- No clause is read from the default of a column. -/
theorem adds_defaultClauses (h : c.Readable dialect) :
    Adds dialect (String.join (c.defaultClauses dialect)) [] := by
  have hdefault : (language dialect).Reads " DEFAULT " [.word "DEFAULT"] := fun _ ↦ rfl
  have hclause {code : String} (h : Inert dialect code) : Adds dialect (" DEFAULT " ++ code) [] :=
    h.adds hdefault (List.forall_mem_singleton.mpr rfl) (stopsAt_blank rfl) (by decide)
  have htimestamp : Inert dialect "CURRENT_TIMESTAMP" :=
    inert_word ⟨by decide, List.all_eq_true.mp rfl⟩ rfl
  have hnow : " DEFAULT CURRENT_TIMESTAMP" = " DEFAULT " ++ "CURRENT_TIMESTAMP" := by decide
  rw [Column.defaultClauses]
  split
  · next value hvalue =>
      rw [join_singleton]
      exact hclause (inert_literal fun s hs ↦ h.default s (hs ▸ hvalue))
  · rw [join_singleton, hnow]
    exact hclause htimestamp
  · exact adds_nil

/-- Texts between commas are read back. -/
theorem texts?_intercalate (values : List String) :
    texts? ([.mark ','].intercalate (values.map ([.text ·]))) = some values := by
  cases values with
  | nil => rfl
  | cons s values =>
      have hlacks : ∀ ps ∈ (s :: values).map fun s ↦ [Piece.text s], Lacks ',' ps := by
        simp [Lacks, Piece.isMark]
      have hne : ([.mark ','].intercalate ((s :: values).map ([.text ·])) : List Piece).isEmpty =
          false := by
        cases values <;> rfl
      have hall (texts : List String) :
          (texts.map fun s ↦ [Piece.text s]).mapM text? = some texts := by
        induction texts with
        | nil => rfl
        | cons s texts ih => simp [List.mapM_cons, ih, text?]
      rw [texts?, hne, splitAt_intercalate (by simp) hlacks]
      exact hall _

/-- A clause that is a word and a group, or ends in one. -/
theorem adds_of_reads {code : String} {ps : List Piece} {added : List Clause}
    (hread : (language dialect).Reads code ps) (hcode : code.toList.head? = some ' ')
    (hcomma : Lacks ',' ps) (hkey : ∀ p ∈ ps.head?, isKeyword "KEY" p = false)
    (hclauses : ∀ rest, clauses (ps ++ rest) = added ++ clauses rest) : Adds dialect code added :=
  ⟨ps, hread.spells, stopsAt_blank hcode, hcomma, hkey, hclauses⟩

/-- The values of a column add the check for them. -/
theorem adds_valuesClauses (h : c.Readable dialect) :
    Adds dialect (String.join c.valuesClauses) (c.values.map (Clause.oneOf c.name)).toList := by
  rw [Column.valuesClauses]
  split
  · next values hvalues =>
      have hcomma : (language dialect).Reads ", " [.mark ','] := fun _ ↦ rfl
      have hin : (language dialect).Reads " IN " [.word "IN"] := fun _ ↦ rfl
      have hcheck : (language dialect).Reads " CHECK " [.word "CHECK"] := fun _ ↦ rfl
      have htexts := Language.spells_intercalate hcomma
        (Language.stopsAt_of_head rfl ⟨rfl, rfl⟩) (by decide)
        fun s hs ↦ spells_quoteText (h.values values hvalues s hs)
      have htest := (Language.spells_word (isWord_of_isIdentifier h.name)).append
        (Language.stopsAt_append (stopsAt_blank rfl) (by decide) _)
        (hin.append (reads_group htexts)).spells
      have hclause := hcheck.append (reads_group htest)
      have hcode : " CHECK " ++ ("(" ++ (c.name ++ (" IN " ++ ("(" ++
          ", ".intercalate (values.map quoteText) ++ ")"))) ++ ")") =
          s!" CHECK ({c.name} IN (" ++ ", ".intercalate (values.map quoteText) ++ "))" := by
        apply String.toList_inj.mp
        simp [toString]
      rw [join_singleton, hvalues, ← hcode]
      refine adds_of_reads hclause (by simp) (by simp [Lacks, Piece.isMark]) (by simp [isKeyword])
        fun rest ↦ ?_
      have hclauses (list : List Piece) : clauses ([.word "CHECK", .group '(' [.word c.name,
          .word "IN", .group '(' list]] ++ rest) =
          ((texts? list).map (.oneOf c.name)).toList ++ clauses rest := by
        rw [← clauses_inert (p := .group '(' [.word c.name, .word "IN", .group '(' list]) rfl rest]
        rfl
      refine (hclauses _).trans ?_
      rw [texts?_intercalate]
  · next hvalues =>
      rw [hvalues]
      exact adds_nil

/-- The table that a column refers to adds its reference. -/
theorem adds_referenceClauses (h : c.Readable dialect) :
    Adds dialect (String.join c.referenceClauses)
      (c.references.map Clause.references).toList := by
  rw [Column.referenceClauses]
  split
  · next table htable =>
      have hreferences : (language dialect).Reads " REFERENCES " [.word "REFERENCES"] := fun _ ↦ rfl
      have hid : (language dialect).Reads " (id)" [.group '(' [.word "id"]] := fun _ ↦ rfl
      have hname : (language dialect).Spells table [.word table] :=
        Language.spells_word (isWord_of_isIdentifier (h.references table htable))
      have hclause := hreferences.append_spells (hname.append (stopsAt_blank rfl) hid.spells)
      have hcode : " REFERENCES " ++ (table ++ " (id)") = s!" REFERENCES {table} (id)" :=
        String.append_assoc.symm
      rw [join_singleton, htable, ← hcode]
      refine ⟨_, hclause, stopsAt_blank (by simp), by simp [Lacks, Piece.isMark],
        by simp [isKeyword], fun rest ↦ ?_⟩
      -- the name of the table starts no clause, whatever word it is, since a group follows it
      have hat : clauseAt (.word table) (.group '(' [.word "id"] :: rest) = none := by
        simp only [clauseAt]
        split_ifs <;> first | rfl | simp_all [isKeyword]
      have hclauses :
          clauses (.word "REFERENCES" :: .word table :: .group '(' [.word "id"] :: rest) =
          .references table :: ((clauseAt (.word table) (.group '(' [.word "id"] :: rest)).toList ++
            clauses (.group '(' [.word "id"] :: rest)) := rfl
      refine hclauses.trans ?_
      rw [hat, clauses_inert rfl]
      rfl
  · next htable =>
      rw [htable]
      exact adds_nil

/-- A column is read as its definition. -/
theorem Column.exists_pieces (h : c.Readable dialect) :
    ∃ ps, (language dialect).Spells (c.render dialect) ps ∧ Lacks ',' ps ∧ isKey ps = false ∧
      column? ps = some c.definition := by
  obtain ⟨ps, hspells, hstops, hcomma, hkey, hclauses⟩ := (((adds_blank h.type).append
    (adds_flags c)).append (adds_defaultClauses h)).append (adds_valuesClauses h) |>.append
      (adds_referenceClauses h)
  refine ⟨.word c.name :: ps, ?_, List.forall_mem_cons.mpr ⟨rfl, hcomma⟩, ?_, ?_⟩
  · have hrender := (Language.spells_word (isWord_of_isIdentifier h.name)).append hstops hspells
    simpa [Column.render, Column.clauses_eq, String.append_assoc] using hrender
  · unfold isKey
    split
    · next heq =>
        obtain ⟨-, rfl⟩ := List.cons.inj heq
        rw [hkey _ rfl, Bool.and_false]
    · rfl
  · have hall := hclauses []
    rw [List.append_nil, show Sql.clauses [] = [] from rfl, List.append_nil] at hall
    rw [column?, if_pos h.name, hall]
    simp [Column.definition]

end

/-! ## Tables and scripts -/

structure Table.Readable (dialect : DatabaseKind) (t : Table) : Prop where
  name : isIdentifier t.name = true
  columns_ne : t.columns ≠ []
  columns : ∀ c ∈ t.columns, c.Readable dialect
  primaryKey : ∀ name ∈ t.primaryKey, isIdentifier name = true

section

variable {dialect : DatabaseKind}

/-- Lines with commas between them are read as their pieces with commas between them. -/
theorem reads_commaSeparated {α : Type} {items : List α} {line : α → String}
    {read : α → List Piece} (h : ∀ a ∈ items, (language dialect).Spells (line a) (read a)) :
    (language dialect).Reads
      (unlines ((Table.commaSeparated (items.map line)).map ("  " ++ ·)))
      ([.mark ','].intercalate (items.map read)) := by
  have hindent : (language dialect).Reads "  " [] := fun _ ↦ rfl
  have hcomma : (language dialect).Reads "," [.mark ','] := fun _ ↦ rfl
  induction items with
  | nil => exact Language.reads_nil
  | cons a items ih =>
      obtain ⟨ha, hitems⟩ := List.forall_mem_cons.mp h
      cases items with
      | nil => simpa [Table.commaSeparated, unlines] using (hindent.append_spells ha).reads_line
      | cons next items =>
          have hline := ((hindent.append_spells ha).append
            (Language.stopsAt_of_head rfl ⟨rfl, rfl⟩) hcomma.spells).reads_line
          have hall := hline.append (ih hitems)
          simpa [Table.commaSeparated, unlines, List.intercalate_cons_cons, String.append_assoc]
            using hall

/-- The key over several columns is two words and a group. -/
theorem spells_primaryKey {names : List String} (h : ∀ name ∈ names, isIdentifier name = true) :
    ∃ inner, (language dialect).Spells ("PRIMARY KEY (" ++ ", ".intercalate names ++ ")")
      [.word "PRIMARY", .word "KEY", .group '(' inner] := by
  have hkey : (language dialect).Reads "PRIMARY KEY " [.word "PRIMARY", .word "KEY"] := fun _ ↦ rfl
  have hcomma : (language dialect).Reads ", " [.mark ','] := fun _ ↦ rfl
  have hnames := Language.spells_intercalate hcomma (Language.stopsAt_of_head rfl ⟨rfl, rfl⟩)
    (by decide) fun name hname ↦ Language.spells_word (isWord_of_isIdentifier (h name hname))
  rw [List.map_id'] at hnames
  have hread := (hkey.append (reads_group hnames)).spells
  have hcode : "PRIMARY KEY " ++ ("(" ++ ", ".intercalate names ++ ")") =
      "PRIMARY KEY (" ++ ", ".intercalate names ++ ")" := by
    apply String.toList_inj.mp
    simp
  rw [hcode] at hread
  exact ⟨_, hread⟩

theorem mapM_column? {α : Type} {items : List α} {read : α → List Piece}
    {definition : α → ColumnDefinition} (h : ∀ a ∈ items, column? (read a) = some (definition a)) :
    (items.map read).mapM column? = some (items.map definition) := by
  induction items with
  | nil => rfl
  | cons a items ih =>
      obtain ⟨ha, hitems⟩ := List.forall_mem_cons.mp h
      rw [List.map_cons, List.mapM_cons, ha, ih hitems]
      rfl

/-- The lines of a table are read as the definitions of its columns. -/
theorem Table.exists_inner {t : Table} (h : t.Readable dialect) :
    ∃ inner, (language dialect).Reads
        (unlines ((Table.commaSeparated (t.lines dialect)).map ("  " ++ ·))) inner ∧
      columns? inner = some (t.columns.map Column.definition) := by
  choose! read hread using fun c hc ↦ Column.exists_pieces (h.columns c hc)
  obtain ⟨names, hnames⟩ := @spells_primaryKey dialect _ h.primaryKey
  -- every line with what is read from it
  let keyLines : List (String × List Piece) := if t.primaryKey.isEmpty then [] else
    [("PRIMARY KEY (" ++ ", ".intercalate t.primaryKey ++ ")",
      [.word "PRIMARY", .word "KEY", .group '(' names])]
  let lines := t.columns.map (fun c ↦ (c.render dialect, read c)) ++ keyLines
  have hlines : t.lines dialect = lines.map Prod.fst := by
    simp only [Table.lines, lines, keyLines, List.map_append, List.map_map]
    congr 1
    split <;> rfl
  have hkeyLines : ∀ l ∈ keyLines,
      (language dialect).Spells l.1 l.2 ∧ Lacks ',' l.2 ∧ isKey l.2 = true := by
    intro l hl
    obtain ⟨-, rfl⟩ : _ ∧ l = _ := by simpa [keyLines] using hl
    exact ⟨hnames, by simp [Lacks, Piece.isMark], rfl⟩
  have hspells : ∀ l ∈ lines, (language dialect).Spells l.1 l.2 :=
    List.forall_mem_append.mpr ⟨List.forall_mem_map.mpr fun c hc ↦ (hread c hc).1,
      fun l hl ↦ (hkeyLines l hl).1⟩
  have hlacks : ∀ ps ∈ lines.map Prod.snd, Lacks ',' ps :=
    List.forall_mem_map.mpr (List.forall_mem_append.mpr ⟨List.forall_mem_map.mpr
      fun c hc ↦ (hread c hc).2.1, fun l hl ↦ (hkeyLines l hl).2.1⟩)
  refine ⟨_, hlines ▸ reads_commaSeparated hspells, ?_⟩
  have hne : lines.map Prod.snd ≠ [] := by simp [lines, h.columns_ne]
  have hcolumns : (lines.map Prod.snd).filter (!isKey ·) = t.columns.map read := by
    have hkept : (t.columns.map read).filter (!isKey ·) = t.columns.map read :=
      List.filter_eq_self.mpr (List.forall_mem_map.mpr fun c hc ↦ by simp [(hread c hc).2.2.1])
    have hdropped : (keyLines.map Prod.snd).filter (!isKey ·) = [] :=
      List.filter_eq_nil_iff.mpr (List.forall_mem_map.mpr fun l hl ↦ by simp [hkeyLines l hl])
    rw [List.map_append, List.map_map, List.filter_append, hdropped, List.append_nil]
    exact hkept
  rw [columns?, splitAt_intercalate hne hlacks, hcolumns]
  exact mapM_column? fun c hc ↦ (hread c hc).2.2.2

/-- The statement of a table is read as its name and its columns. -/
theorem Table.exists_statement {t : Table} (h : t.Readable dialect) :
    ∃ inner, (language dialect).Reads (unlines ("" :: t.statement dialect))
        [.word "CREATE", .word "TABLE", .word t.name, .group '(' inner, .mark ';'] ∧
      columns? inner = some (t.columns.map Column.definition) := by
  obtain ⟨inner, hinner, hcolumns⟩ := exists_inner h
  have hcreate : (language dialect).Reads "\nCREATE TABLE " [.word "CREATE", .word "TABLE"] :=
    fun _ ↦ rfl
  have hname : (language dialect).Spells t.name [.word t.name] :=
    Language.spells_word (isWord_of_isIdentifier h.name)
  have hend : (language dialect).Reads ";" [.mark ';'] := fun _ ↦ rfl
  have hfront : (language dialect).Reads ("\nCREATE TABLE " ++ t.name ++ " ")
      [.word "CREATE", .word "TABLE", .word t.name] :=
    (hcreate.append_spells hname).reads_space
  have hcode : "\nCREATE TABLE " ++ t.name ++ " " ++ "(" ++ "\n" ++
      unlines ((Table.commaSeparated (t.lines dialect)).map ("  " ++ ·)) ++ (")" ++ ";" ++ "\n") =
      unlines ("" :: t.statement dialect) := by
    apply String.toList_inj.mp
    simp [Table.statement, unlines, toString]
  refine ⟨inner, ?_, hcolumns⟩
  rw [← hcode]
  exact (brackets dialect).reads_block rfl rfl hfront hinner hend.spells

theorem tables?_statement {name : String} (hname : isIdentifier name = true) {inner : List Piece}
    {columns : List ColumnDefinition} (h : columns? inner = some columns) (rest : List Piece) :
    tables? ([.word "CREATE", .word "TABLE", .word name, .group '(' inner, .mark ';'] ++ rest) =
      (tables? rest).map (⟨name, columns⟩ :: ·) := by
  have hstatement : tables? ([.word "CREATE", .word "TABLE", .word name, .group '(' inner,
      .mark ';'] ++ rest) = if isIdentifier name then
        (columns? inner).bind fun columns ↦ (tables? rest).map (⟨name, columns⟩ :: ·)
      else none := rfl
  rw [hstatement, if_pos hname, h]
  rfl

/-- A database makes of a written script the tables that it was written from. -/
theorem definitions_render {heading : String}
    (hheading : (language dialect).Reads ("-- " ++ heading ++ "\n") []) {ts : List Table}
    (h : ∀ t ∈ ts, t.Readable dialect) :
    definitions dialect (render dialect heading ts) = some (ts.map Table.definition) := by
  choose! inner hread hcolumns using fun t ht ↦ Table.exists_statement (h t ht)
  have hscript := hheading.append (Language.reads_flatMap hread)
  rw [← unlines_singleton, ← unlines_append] at hscript
  have hrender : render dialect heading ts =
      unlines (["-- " ++ heading] ++ ts.flatMap fun t ↦ "" :: t.statement dialect) :=
    render_eq_unlines dialect heading ts
  rw [definitions, hrender, hscript.outline_eq, Option.bind_some, List.nil_append]
  clear hread hscript hrender
  induction ts with
  | nil => rfl
  | cons t ts ih =>
      obtain ⟨ht, hts⟩ := List.forall_mem_cons.mp h
      obtain ⟨hfirst, hrest⟩ := List.forall_mem_cons.mp hcolumns
      rw [List.flatMap_cons, tables?_statement ht.name hfirst, ih hts hrest]
      rfl

end

end Scaffold.Sql

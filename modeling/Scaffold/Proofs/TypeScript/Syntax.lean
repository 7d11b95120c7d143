import Scaffold.Proofs.Artifact.Outline
import Scaffold.Proofs.TypeScript.TextLiterals

/-!
# Reading a module

What a module exports, and what it takes from others, is up to its statements.  The reader here
knows the statements that occur in generated modules: interfaces, types, constants, functions,
imports of types, and exports of all that another module exports.  A module with any other statement
is not read at all, so that nothing is taken for something else.  Comments are no code, and quotes
of all kinds are read as literals.
-/

namespace Scaffold.TypeScript

/-! ## The language -/

/-- Letters of names.  Others than these may occur in names, but then the module is not read. -/
def isLetter (c : Char) : Bool := c.isAlphanum || c = '_' || c = '$'

/-- Reads a template behind its opening quote.  A variable `id` is read as it stands in the path of
a route, and there is no other variable. -/
def readTemplate : List Char → Option (List Char × List Char)
  | [] => none
  | '\x60' :: rest => some ([], rest)
  | '$' :: '\x7b' :: 'i' :: 'd' :: '\x7d' :: rest =>
      (readTemplate rest).map (prepend [':', 'i', 'd'])
  | '$' :: '\x7b' :: _ => none
  | c :: rest => if c = '\\' ∨ c = '\r' then none else (readTemplate rest).map (prepend [c])

/-- What follows a literal does not change how it is read. -/
theorem readBody_append {quote : Char} {cs content : List Char}
    (h : readBody quote cs = some (content, [])) (c : Char) (more : List Char) :
    readBody quote (cs ++ c :: more) = some (content, c :: more) := by
  fun_induction readBody quote cs generalizing content with
  | case1 => cases h
  | case2 =>
      cases h
      exact readBody_close _
  | case3 => cases h
  | case4 => cases h
  | case5 => cases h
  | case6 d rest hquote hline ih =>
      obtain ⟨e, he, hrest⟩ := Option.bind_eq_some_iff.mp h
      simp only [List.cons_append, readBody, if_neg hquote, he, Option.bind_some]
      exact map_prepend_append ih hrest
  | case7 d e rest hquote hline hslash ih =>
      rw [List.cons_append, readBody_cons hquote hslash (by simp), if_neg hline]
      exact map_prepend_append ih h

theorem readTemplate_cons {c : Char} {rest : List Char} (hclose : c ≠ '\x60')
    (hvariable : c = '$' → rest.head? ≠ some '\x7b') :
    readTemplate (c :: rest) =
      if c = '\\' ∨ c = '\r' then none else (readTemplate rest).map (prepend [c]) := by
  rw [readTemplate]
  · exact hclose
  · rintro tail rfl rfl
    exact hvariable rfl rfl
  · rintro tail rfl rfl
    exact hvariable rfl rfl

/-- What follows a template does not change how it is read. -/
theorem readTemplate_append {cs content : List Char} (h : readTemplate cs = some (content, []))
    (c : Char) (more : List Char) :
    readTemplate (cs ++ c :: more) = some (content, c :: more) := by
  fun_induction readTemplate cs generalizing content with
  | case1 => cases h
  | case2 rest =>
      cases h
      rfl
  | case3 rest ih => exact map_prepend_append ih h
  | case4 => cases h
  | case5 => cases h
  | case6 d rest hclose _ hvariable hplain ih =>
      have hhead : d = '$' → (rest ++ c :: more).head? ≠ some '\x7b' := by
        rintro rfl hbrace
        cases rest with
        | nil => cases h
        | cons first tail =>
            obtain rfl := Option.some.inj hbrace
            exact hvariable tail rfl rfl
      rw [List.cons_append, readTemplate_cons hclose hhead, if_neg hplain]
      exact map_prepend_append ih h

def language : Language where
  isLetter := isLetter
  isMark c := "\x7b\x7d()[]<>=:;,?|*".toList.contains c
  isQuote c := c = '\x27' || c = '"' || c = '\x60'
  isBlank_stops c hc := by
    simp only [isBlank, Bool.or_eq_true, decide_eq_true_eq] at hc
    rcases hc with ((rfl | rfl) | rfl) | rfl <;> decide
  dash := '/'
  isLineEnd c := c = '\n' || c = '\r' || c = '\u2028' || c = '\u2029'
  doubles := false
  literal quote cs :=
    if quote = '\x60' then (readTemplate cs).map (asToken .template)
    else (readBody quote cs).map (asToken .text)
  literal_append {quote cs t} h c _ more := by
    split at h
    · next hquote =>
        rw [if_pos hquote]
        exact map_asToken_append (readTemplate_append · c more) h
    · next hquote =>
        rw [if_neg hquote]
        exact map_asToken_append (readBody_append · c more) h

theorem braces : language.Brackets '\x7b' '\x7d' where
  stops := ⟨rfl, rfl⟩
  opens _ := rfl
  closes _ _ _ := rfl

theorem parentheses : language.Brackets '(' ')' where
  stops := ⟨rfl, rfl⟩
  opens _ := rfl
  closes _ _ _ := rfl

theorem squareBrackets : language.Brackets '[' ']' where
  stops := ⟨rfl, rfl⟩
  opens _ := rfl
  closes _ _ _ := rfl

/-- A comment is no code. -/
theorem reads_comment {body : String} (h : '*' ∉ body.toList) :
    language.Reads ("/*" ++ body ++ "*/") [] := by
  have hinside (o : Outline) {cs : List Char} (hcs : '*' ∉ cs) :
      cs.foldl language.step ⟨o, .block false⟩ = ⟨o, .block false⟩ := by
    induction cs with
    | nil => rfl
    | cons c cs ih =>
        obtain ⟨hc, hcs⟩ := not_or.mp (List.mem_cons.not.mp hcs)
        have hstep : language.step ⟨o, .block false⟩ c = ⟨o, .block false⟩ := by
          simp [Language.step, Ne.symm hc]
        rw [List.foldl_cons, hstep, ih hcs]
  intro o
  have hopen : "/*".toList.foldl language.step ⟨o, .free⟩ = ⟨o, .block false⟩ := rfl
  rw [String.toList_append, String.toList_append, List.foldl_append, List.foldl_append, hopen,
    hinside o h]
  rfl

theorem reads_headingLines {heading : String}
    (h : heading.toList.all (!language.isLineEnd ·) = true) :
    language.Reads (unlines (headingLines heading)) [] := by
  have hcomment := @Language.reads_lineComment language "// " heading (fun _ ↦ rfl) rfl h
  have hlines : unlines (headingLines heading) = "// " ++ heading ++ "\n" ++ "\n" := by
    rw [headingLines, ← List.singleton_append, unlines_append, unlines_singleton, unlines_singleton]
    rfl
  rw [hlines]
  exact hcomment.spells.reads_line

/-! ## Names and literals -/

def isIdentifier (name : String) : Bool :=
  name.toList.head?.any (!·.isDigit) && name.toList.all isLetter

theorem isIdentifier_append {a b : String} (ha : isIdentifier a = true)
    (hb : b.toList.all isLetter = true) : isIdentifier (a ++ b) = true := by
  simp only [isIdentifier, Bool.and_eq_true] at ha ⊢
  refine ⟨?_, by rw [String.toList_append, List.all_append, ha.2, hb]; rfl⟩
  cases hlist : a.toList with
  | nil => simp [hlist] at ha
  | cons c cs => simpa [hlist] using ha.1

theorem all_isLetter_of_isIdentifier {name : String} (h : isIdentifier name = true) :
    name.toList.all isLetter = true :=
  (Bool.and_eq_true_iff.mp h).2

theorem spells_identifier {name : String} (h : isIdentifier name = true) :
    language.Spells name [.word name] := by
  simp only [isIdentifier, Bool.and_eq_true, List.all_eq_true] at h
  refine Language.spells_word ⟨?_, h.2⟩
  rintro rfl
  simp at h

theorem spells_quoteText {s : String} (h : OnOneLine s.toList) :
    language.Spells (quoteText s) [.text s] := by
  have hread := (readBody_escapeText_iff [] s.toList).mpr h
  have hliteral : language.literal '\x27' (escapeText s.toList ++ ['\x27']) =
      some (.text s, []) := by
    simp [language, hread, asToken]
  exact Language.spells_literal rfl rfl hliteral (by simp)

/-! ## Statements -/

inductive Alternative where
  | named (type : String)
  | text (content : String)
deriving DecidableEq, Repr

structure MemberDefinition where
  name : String
  isReadonly : Bool
  isOptional : Bool
  type : List Alternative
deriving DecidableEq, Repr

inductive Statement where
  | interface (name : String) (members : List MemberDefinition)
  | type (name : String)
  /-- A constant object, with what stands in its braces. -/
  | constant (name : String) (inner : List Piece)
  | function (name : String) (body : List Piece)
  | importTypes (names : List String) (module : String)
  | exportAll (module : String)

def alternative? : List Piece → Option Alternative
  | [.word type] => some (.named type)
  | [.text content] => some (.text content)
  | _ => none

def typed? (name : String) (isReadonly : Bool) : List Piece → Option MemberDefinition
  | .mark '?' :: .mark ':' :: type =>
      ((splitAt '|' type).mapM alternative?).map (⟨name, isReadonly, true, ·⟩)
  | .mark ':' :: type =>
      ((splitAt '|' type).mapM alternative?).map (⟨name, isReadonly, false, ·⟩)
  | _ => none

def member? : List Piece → Option MemberDefinition
  | .word modifier :: .word name :: rest =>
      if modifier = "readonly" && isIdentifier name then typed? name true rest else none
  | .word name :: rest => if isIdentifier name then typed? name false rest else none
  | _ => none

def name? : List Piece → Option String
  | [.word name] => if isIdentifier name then some name else none
  | _ => none

def statement? : List Piece → Option Statement
  | [.word "export", .word "interface", .word name, .group '\x7b' inner] =>
      if isIdentifier name then ((endedBy ';' inner).mapM member?).map (.interface name) else none
  | .word "export" :: .word "type" :: .word name :: .mark '=' :: _ =>
      if isIdentifier name then some (.type name) else none
  | [.word "export", .word "const", .word name, .mark '=', .group '\x7b' inner]
  | [.word "export", .word "const", .word name, .mark '=', .group '\x7b' inner, .word "as",
      .word "const"] =>
      if isIdentifier name then some (.constant name inner) else none
  | [.word "export", .word "function", .word name, .group '(' _, .group '\x7b' body] =>
      if isIdentifier name then some (.function name body) else none
  | [.word "import", .word "type", .group '\x7b' inner, .word "from", .text module] =>
      ((splitAt ',' inner).mapM name?).map (.importTypes · module)
  | [.word "export", .mark '*', .word "from", .text module] => some (.exportAll module)
  | _ => none

/-- Whether a statement that begins like this ends with what it has in braces. -/
def endsInBody : List Piece → Bool
  | .word "export" :: .word "interface" :: _ | .word "export" :: .word "function" :: _ => true
  | _ => false

/-- Divides a module into statements, which end in a semicolon or in their body. -/
def divide (current : List Piece) : List Piece → Option (List (List Piece))
  | [] => if current.isEmpty then some [] else none
  | .mark ';' :: rest => (divide [] rest).map (current :: ·)
  | .group '\x7b' inner :: rest =>
      if endsInBody current then
        (divide [] rest).map ((current ++ [.group '\x7b' inner]) :: ·)
      else divide (current ++ [.group '\x7b' inner]) rest
  | p :: rest => divide (current ++ [p]) rest

def statements (ps : List Piece) : Option (List Statement) :=
  (divide [] ps).bind (·.mapM statement?)

def module? (code : String) : Option (List Statement) := (language.outline code).bind statements

/-! ## Code that adds statements -/

/-- Whether code that begins and ends between statements adds the given ones to a module. -/
def Declares (code : String) (ss : List Statement) : Prop :=
  ∃ ps, language.Reads code ps ∧ ∀ rest, statements (ps ++ rest) = (statements rest).map (ss ++ ·)

section

variable {code more : String} {ss others : List Statement}

theorem declares_nothing (h : language.Reads code []) : Declares code [] :=
  ⟨[], h, fun rest ↦ by simp⟩

theorem declares_statement {ps chunk : List Piece} {s : Statement} (h : language.Reads code ps)
    (hdivide : ∀ rest, divide [] (ps ++ rest) = (divide [] rest).map (chunk :: ·))
    (hstatement : statement? chunk = some s) : Declares code [s] := by
  refine ⟨ps, h, fun rest ↦ ?_⟩
  rw [statements, hdivide, statements]
  cases divide [] rest with
  | none => rfl
  | some chunks =>
      simp only [Option.map_some, Option.bind_some, List.mapM_cons, hstatement]
      cases chunks.mapM statement? <;> rfl

theorem declares_interface {name : String} {inner : List Piece} {members : List MemberDefinition}
    (h : language.Reads code [.word "export", .word "interface", .word name, .group '\x7b' inner])
    (hname : isIdentifier name = true)
    (hmembers : (endedBy ';' inner).mapM member? = some members) :
    Declares code [.interface name members] := by
  refine declares_statement h (fun _ ↦ rfl) ((if_pos hname).trans ?_)
  rw [hmembers]
  rfl

theorem declares_constant {name : String} {inner : List Piece} (hname : isIdentifier name = true)
    (h : language.Reads code
      [.word "export", .word "const", .word name, .mark '=', .group '\x7b' inner, .mark ';']) :
    Declares code [.constant name inner] :=
  declares_statement h (fun _ ↦ rfl) (if_pos hname)

theorem declares_fixed {name : String} {inner : List Piece} (hname : isIdentifier name = true)
    (h : language.Reads code [.word "export", .word "const", .word name, .mark '=',
      .group '\x7b' inner, .word "as", .word "const", .mark ';']) :
    Declares code [.constant name inner] :=
  declares_statement h (fun _ ↦ rfl) (if_pos hname)

theorem Declares.append (h : Declares code ss) (h' : Declares more others) :
    Declares (code ++ more) (ss ++ others) := by
  obtain ⟨ps, hps, hss⟩ := h
  obtain ⟨qs, hqs, hothers⟩ := h'
  refine ⟨ps ++ qs, hps.append hqs, fun rest ↦ ?_⟩
  rw [List.append_assoc, hss, hothers, Option.map_map]
  simp [Function.comp_def]

theorem Declares.module?_eq (h : Declares code ss) : module? code = some ss := by
  obtain ⟨ps, hps, hss⟩ := h
  have hall := hss []
  rw [List.append_nil] at hall
  rw [module?, hps.outline_eq, Option.bind_some, hall, show statements [] = some [] from rfl,
    Option.map_some, List.append_nil]

theorem declares_unlines {α : Type} {items : List α} {line : α → String} {s : α → Statement}
    (h : ∀ a ∈ items, Declares (line a ++ "\n") [s a]) :
    Declares (unlines (items.map line)) (items.map s) := by
  induction items with
  | nil => exact declares_nothing Language.reads_nil
  | cons a items ih =>
      obtain ⟨ha, hitems⟩ := List.forall_mem_cons.mp h
      rw [List.map_cons, ← List.singleton_append, unlines_append, unlines_singleton]
      exact ha.append (ih hitems)

end

/-! ## Blocks -/

section

variable {margin front back : String} {ps qs : List Piece}

/-- A block is read as a group with the pieces of its lines. -/
theorem reads_blockLines {α : Type} {items : List α} {line : α → String} {read : α → List Piece}
    (hmargin : language.Reads margin []) (hfront : language.Reads front ps)
    (hitems : ∀ a ∈ items, language.Spells (line a) (read a)) (hback : language.Spells back qs) :
    language.Reads
      (unlines (blockLines margin (front ++ "\x7b") ("\x7d" ++ back) (items.map line)))
      (ps ++ [.group '\x7b' (items.flatMap read)] ++ qs) := by
  have hindent : language.Reads "  " [] := fun _ ↦ rfl
  have hbody : language.Reads (unlines (items.map fun a ↦ margin ++ "  " ++ line a) ++ margin)
      (items.flatMap read) := by
    have hlines := Language.reads_unlines fun a ha ↦
      (hmargin.append hindent).append_spells (hitems a ha)
    simpa using hlines.append hmargin
  have hopening : "\x7b".toList = ['\x7b'] := rfl
  have hending : "\x7d".toList = ['\x7d'] := rfl
  have hblock := braces.reads_block hopening hending (hmargin.append hfront) hbody hback
  have hcode : margin ++ front ++ "\x7b" ++ "\n" ++
      (unlines (items.map fun a ↦ margin ++ "  " ++ line a) ++ margin) ++
        ("\x7d" ++ back ++ "\n") =
      unlines (blockLines margin (front ++ "\x7b") ("\x7d" ++ back) (items.map line)) := by
    rw [blockLines, unlines_append, unlines_append, unlines_singleton, unlines_singleton,
      List.map_map]
    simp [String.append_assoc, Function.comp_def]
  rwa [hcode, List.nil_append] at hblock

end

/-! ## Members -/

namespace Alternative

def piece : Alternative → Piece
  | named type => .word type
  | text content => .text content

def code : Alternative → String
  | named type => type
  | text content => quoteText content

def Readable : Alternative → Prop
  | named type => isIdentifier type = true
  | text content => OnOneLine content.toList

theorem spells_code {a : Alternative} (h : a.Readable) : language.Spells a.code [a.piece] := by
  cases a with
  | named type => exact spells_identifier h
  | text content => exact spells_quoteText h

end Alternative

def ValueType.alternatives : ValueType → List Alternative
  | .string => [.named "string"]
  | .number => [.named "number"]
  | .boolean => [.named "boolean"]
  | .unknown => [.named "unknown"]
  | .oneOf values => values.map .text

namespace Member

def alternatives (m : Member) : List Alternative :=
  m.type.alternatives ++ if m.isNullable then [.named "null"] else []

def definition (m : Member) : MemberDefinition :=
  ⟨m.name, m.isReadonly, m.isOptional, m.alternatives⟩

structure Readable (m : Member) : Prop where
  name : isIdentifier m.name = true
  values : ∀ values, m.type = .oneOf values → values ≠ [] ∧ ∀ s ∈ values, OnOneLine s.toList

variable {m : Member}

theorem alternatives_ne (h : m.Readable) : m.type.alternatives ≠ [] := by
  cases htype : m.type with
  | oneOf values => simpa [ValueType.alternatives] using (h.values values htype).1
  | _ => simp [ValueType.alternatives]

theorem readable_alternatives (h : m.Readable) : ∀ a ∈ m.alternatives, a.Readable := by
  refine List.forall_mem_append.mpr ⟨?_, ?_⟩
  · cases htype : m.type with
    | oneOf values => exact List.forall_mem_map.mpr (h.values values htype).2
    | _ => exact List.forall_mem_singleton.mpr rfl
  · split
    · exact List.forall_mem_singleton.mpr rfl
    · exact List.forall_mem_nil _

/-- All alternatives are written with the same mark between them. -/
theorem type_eq (h : m.Readable) :
    m.type.render ++ (if m.isNullable then " | null" else "") =
      " | ".intercalate (m.alternatives.map Alternative.code) := by
  have hcode : m.type.render = " | ".intercalate (m.type.alternatives.map Alternative.code) := by
    cases m.type with
    | oneOf values => rw [ValueType.alternatives, List.map_map]; rfl
    | _ => rfl
  have hne : m.type.alternatives.map Alternative.code ≠ [] := by simpa using alternatives_ne h
  rw [alternatives, hcode]
  cases m.isNullable with
  | false => simp
  | true =>
      rw [if_pos rfl, if_pos rfl, List.map_append,
        String.intercalate_append_of_ne_nil hne (by simp), String.append_assoc]
      rfl

theorem mapM_alternative? (alternatives : List Alternative) :
    (alternatives.map fun a ↦ [a.piece]).mapM alternative? = some alternatives := by
  induction alternatives with
  | nil => rfl
  | cons a alternatives ih =>
      rw [List.map_cons, List.mapM_cons, ih]
      cases a <;> rfl

def modifiers (isReadonly : Bool) : List Piece := if isReadonly then [.word "readonly"] else []

/-- The marks between the name of a member and its type. -/
def marks (isOptional : Bool) : List Piece :=
  if isOptional then [.mark '?', .mark ':'] else [.mark ':']

theorem member?_eq {name : String} (h : isIdentifier name = true) (isReadonly isOptional : Bool)
    (type : List Piece) :
    member? (modifiers isReadonly ++ [.word name] ++ marks isOptional ++ type) =
      ((splitAt '|' type).mapM alternative?).map (⟨name, isReadonly, isOptional, ·⟩) := by
  cases isReadonly <;> cases isOptional <;> exact if_pos (by simp [h])

theorem spells_type (h : m.Readable) :
    language.Spells (m.type.render ++ if m.isNullable then " | null" else "")
      ([.mark '|'].intercalate (m.alternatives.map fun a ↦ [a.piece])) := by
  have hbar : language.Reads " | " [.mark '|'] := fun _ ↦ rfl
  rw [type_eq h]
  exact Language.spells_intercalate hbar (Language.stopsAt_of_head rfl ⟨rfl, rfl⟩) (by decide)
    fun a ha ↦ Alternative.spells_code (readable_alternatives h a ha)

/-- A member is read as its definition. -/
theorem exists_pieces (h : m.Readable) :
    ∃ ps, language.Spells m.render (ps ++ [.mark ';']) ∧ Lacks ';' ps ∧
      member? ps = some m.definition := by
  let type : List Piece := [.mark '|'].intercalate (m.alternatives.map fun a ↦ [a.piece])
  have hpieces (c : Char) : ∀ ps ∈ m.alternatives.map fun a ↦ [a.piece], Lacks c ps :=
    List.forall_mem_map.mpr fun a _ ↦ List.forall_mem_singleton.mpr (by cases a <;> rfl)
  refine ⟨modifiers m.isReadonly ++ [.word m.name] ++ marks m.isOptional ++ type, ?_, ?_, ?_⟩
  · have hfront : language.Reads (if m.isReadonly then "readonly " else "")
        (modifiers m.isReadonly) := by
      cases m.isReadonly <;> exact fun _ ↦ rfl
    have hmarks : language.Reads ((if m.isOptional then "?" else "") ++ ": ")
        (marks m.isOptional) := by
      cases m.isOptional <;> exact fun _ ↦ rfl
    have hstops : language.StopsAt ((if m.isOptional then "?" else "") ++ ": ") := by
      cases m.isOptional <;> exact Language.stopsAt_of_head rfl ⟨rfl, rfl⟩
    have hend : language.Reads ";" [.mark ';'] := fun _ ↦ rfl
    have hname := (hfront.append_spells (spells_identifier h.name)).append_reads hstops (by simp)
      hmarks
    have hmember := (hname.append_spells (spells_type h)).append
      (Language.stopsAt_of_head rfl ⟨rfl, rfl⟩) hend.spells
    simpa only [render, String.append_assoc] using hmember
  · have hmodifiers : Lacks ';' (modifiers m.isReadonly ++ [.word m.name]) := by
      cases m.isReadonly <;> simp [modifiers, Lacks, Piece.isMark]
    have hmarks : Lacks ';' (marks m.isOptional) := by
      cases m.isOptional <;> simp [marks, Lacks, Piece.isMark]
    exact lacks_append.mpr ⟨lacks_append.mpr ⟨hmodifiers, hmarks⟩,
      lacks_intercalate (by decide) (hpieces ';')⟩
  · have hne : m.alternatives.map (fun a ↦ [a.piece]) ≠ [] := by
      simp [alternatives, alternatives_ne h]
    rw [member?_eq h.name, splitAt_intercalate hne (hpieces '|'), mapM_alternative?]
    rfl

end Member

/-! ## Interfaces -/

theorem mapM_of_forall {α β γ : Type} {items : List α} {write : α → β} {read : β → Option γ}
    {meant : α → γ} (h : ∀ a ∈ items, read (write a) = some (meant a)) :
    (items.map write).mapM read = some (items.map meant) := by
  induction items with
  | nil => rfl
  | cons a items ih =>
      obtain ⟨ha, hitems⟩ := List.forall_mem_cons.mp h
      rw [List.map_cons, List.mapM_cons, ha, ih hitems]
      rfl

/-- An interface is read as its name and the definitions of its members. -/
theorem Interface.declares {i : Interface} (hname : isIdentifier i.name = true)
    (h : ∀ m ∈ i.members, m.Readable) :
    Declares (unlines i.lines) [.interface i.name (i.members.map Member.definition)] := by
  choose! ps hspells hlacks hmember using fun m hm ↦ Member.exists_pieces (h m hm)
  have hfront : language.Reads ("export interface " ++ i.name ++ " ")
      [.word "export", .word "interface", .word i.name] := by
    have hexport : language.Reads "export interface " [.word "export", .word "interface"] :=
      fun _ ↦ rfl
    exact (hexport.append_spells (spells_identifier hname)).reads_space
  have hread := reads_blockLines Language.reads_nil hfront hspells Language.reads_nil.spells
  have hlines : blockLines "" ("export interface " ++ i.name ++ " " ++ "\x7b") ("\x7d" ++ "")
      (i.members.map Member.render) = i.lines := by
    simp [lines, toString, String.append_assoc]
  rw [hlines] at hread
  have hmembers : (endedBy ';' (i.members.flatMap fun m ↦ ps m ++ [.mark ';'])).mapM member? =
      some (i.members.map Member.definition) := by
    have hended : endedBy ';' ((i.members.map ps).flatMap (· ++ [.mark ';'])) = i.members.map ps :=
      endedBy_flatMap (List.forall_mem_map.mpr hlacks)
    rw [List.flatMap_map] at hended
    rw [hended]
    exact mapM_of_forall hmember
  exact declares_interface hread hname hmembers

end Scaffold.TypeScript

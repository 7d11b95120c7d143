import Mathlib.Data.List.Induction
import Scaffold.Proofs.Artifact.Lines

/-!
# Reading code

A text means what its reader makes of it, and not what its lines look like: what stands in a comment
or inside a literal is no code.  The reader here goes through a text character by character, cuts it
into tokens, and divides these into groups by their brackets.  What letters, quotes and comments are
is up to the language.

Code is written piece by piece, and so it is read.  `Language.Reads` says what code adds that begins
and ends between two tokens, whatever has been read before it, and `Language.Spells` is the same for
code that may end in a word or a literal.
-/

namespace Scaffold

inductive Token where
  | word (letters : String)
  /-- A text in quotes, as what it denotes. -/
  | text (content : String)
  | template (content : String)
  | mark (c : Char)
deriving DecidableEq, Repr

inductive Piece where
  | token (t : Token)
  | group (bracket : Char) (inner : List Piece)

namespace Piece

@[match_pattern] abbrev word (w : String) : Piece := .token (.word w)

@[match_pattern] abbrev text (s : String) : Piece := .token (.text s)

@[match_pattern] abbrev template (s : String) : Piece := .token (.template s)

@[match_pattern] abbrev mark (c : Char) : Piece := .token (.mark c)

def isMark (c : Char) : Piece → Bool
  | .mark d => d == c
  | _ => false

end Piece

/-! ## Groups -/

def closing : Char → Option Char
  | '(' => some ')'
  | '[' => some ']'
  | '\x7b' => some '\x7d'
  | _ => none

def isClosing (c : Char) : Bool := c = ')' || c = ']' || c = '\x7d'

/-- What has been read of the innermost group that is still open, and of those around it, the last
piece first. -/
structure Outline where
  done : List Piece := []
  outer : List (Char × List Piece) := []

namespace Outline

def add (o : Outline) (t : Token) : Outline := { o with done := .token t :: o.done }

def addAll (o : Outline) (ps : List Piece) : Outline := { o with done := ps.reverse ++ o.done }

theorem addAll_addAll (o : Outline) (ps qs : List Piece) :
    (o.addAll ps).addAll qs = o.addAll (ps ++ qs) := by
  simp [addAll]

/-- Ends the innermost group, if the bracket fits. -/
def close (o : Outline) (c : Char) : Option Outline :=
  match o.outer with
  | (bracket, before) :: outer =>
      if closing bracket = some c then some ⟨.group bracket o.done.reverse :: before, outer⟩
      else none
  | [] => none

def mark (o : Outline) (c : Char) : Option Outline :=
  if (closing c).isSome then some ⟨[], (c, o.done) :: o.outer⟩
  else if isClosing c then o.close c
  else some (o.add (.mark c))

end Outline

/-! ## Languages -/

def isBlank (c : Char) : Bool := c = ' ' || c = '\n' || c = '\t' || c = '\r'

/-- What a reader has to know of a language. -/
structure Language where
  isLetter : Char → Bool
  isMark : Char → Bool
  isQuote : Char → Bool
  isBlank_stops : ∀ c, isBlank c = true → isLetter c = false ∧ isQuote c = false
  /-- Twice, it opens a comment as far as the end of the line. -/
  dash : Char
  isLineEnd : Char → Bool
  /-- Whether a literal goes on where its quote is doubled. -/
  doubles : Bool
  /-- Reads a literal behind its opening quote. -/
  literal : Char → List Char → Option (Token × List Char)
  /-- A literal that has been read to its end is read the same with more behind it. -/
  literal_append : ∀ {quote : Char} {cs : List Char} {t : Token}, literal quote cs = some (t, []) →
    ∀ {c : Char}, ¬ (doubles = true ∧ c = quote) → ∀ more,
      literal quote (cs ++ c :: more) = some (t, c :: more)

def asToken (make : String → Token) (p : List Char × List Char) : Token × List Char :=
  (make (String.ofList p.1), p.2)

theorem map_asToken_append {make : String → Token} {o o' : Option (List Char × List Char)}
    {more : List Char} (ho : ∀ {content}, o = some (content, []) → o' = some (content, more))
    {t : Token} (h : o.map (asToken make) = some (t, [])) :
    o'.map (asToken make) = some (t, more) := by
  obtain ⟨⟨content, rest⟩, hread, heq⟩ := Option.map_eq_some_iff.mp h
  obtain ⟨rfl, rfl⟩ : make (String.ofList content) = t ∧ rest = [] := Prod.ext_iff.mp heq
  rw [ho hread]
  rfl

/-- Where a reader is.  Letters and what is inside a literal are kept as they were read. -/
inductive Place where
  | free
  | word (letters : List Char)
  /-- Behind one character of those that open a comment together. -/
  | half (c : Char)
  | line
  | block (starred : Bool)
  | quoted (quote : Char) (content : List Char)
  /-- Behind a literal that is complete unless its quote is doubled. -/
  | closed (quote : Char) (content : List Char) (t : Token)
  /-- Behind something that is not part of the language. -/
  | lost

structure Reader where
  outline : Outline := {}
  place : Place := .free

def Reader.settle (r : Reader) : Option (List Piece) :=
  if r.outline.outer.isEmpty then
    match r.place with
    | .free | .line => some r.outline.done.reverse
    | .word letters => some (r.outline.add (.word (String.ofList letters))).done.reverse
    | .closed _ _ t => some (r.outline.add t).done.reverse
    | .half _ | .block _ | .quoted _ _ | .lost => none
  else none

namespace Language

variable (L : Language)

def start (o : Outline) (c : Char) : Reader :=
  if L.isLetter c then ⟨o, .word [c]⟩
  else if L.isQuote c then ⟨o, .quoted c []⟩
  else if isBlank c then ⟨o, .free⟩
  else if c = L.dash || c = '/' then ⟨o, .half c⟩
  else if L.isMark c then
    match o.mark c with
    | some o => ⟨o, .free⟩
    | none => ⟨o, .lost⟩
  else ⟨o, .lost⟩

def inside (o : Outline) (quote : Char) (content : List Char) : Reader :=
  match L.literal quote content with
  | some (t, []) => ⟨o, .closed quote content t⟩
  | _ => ⟨o, .quoted quote content⟩

def step (r : Reader) (c : Char) : Reader :=
  match r.place with
  | .free => L.start r.outline c
  | .word letters =>
      if L.isLetter c then ⟨r.outline, .word (letters ++ [c])⟩
      else L.start (r.outline.add (.word (String.ofList letters))) c
  | .half d =>
      if d = '/' && c = '*' then ⟨r.outline, .block false⟩
      else if c = d && d = L.dash then ⟨r.outline, .line⟩
      else if L.isMark d then L.start (r.outline.add (.mark d)) c
      else ⟨r.outline, .lost⟩
  | .line => if L.isLineEnd c then ⟨r.outline, .free⟩ else r
  | .block starred =>
      if starred && c = '/' then ⟨r.outline, .free⟩ else ⟨r.outline, .block (c = '*')⟩
  | .quoted quote content => L.inside r.outline quote (content ++ [c])
  | .closed quote content t =>
      if L.doubles && c = quote then L.inside r.outline quote (content ++ [c])
      else L.start (r.outline.add t) c
  | .lost => r

def outline (code : String) : Option (List Piece) := (code.toList.foldl L.step {}).settle

/-! ## Reading piece by piece -/

/-- Whether code that begins and ends between tokens is read as the given pieces. -/
def Reads (code : String) (ps : List Piece) : Prop :=
  ∀ o, code.toList.foldl L.step ⟨o, .free⟩ = ⟨o.addAll ps, .free⟩

def Stops (c : Char) : Prop := L.isLetter c = false ∧ L.isQuote c = false

def StopsAt (code : String) : Prop := ∀ c ∈ code.toList.head?, L.Stops c

/-- Whether code that begins between tokens is read as the given pieces as soon as something follows
that can follow a word or a literal. -/
def Spells (code : String) (ps : List Piece) : Prop :=
  ∀ o c, L.Stops c → (code.toList ++ [c]).foldl L.step ⟨o, .free⟩ = L.step ⟨o.addAll ps, .free⟩ c

variable {L} {code more : String} {ps qs : List Piece}

theorem Reads.outline_eq (h : L.Reads code ps) : L.outline code = some ps := by
  rw [outline, h {}]
  simp [Reader.settle, Outline.addAll]

theorem reads_nil : L.Reads "" [] := fun _ ↦ rfl

theorem Reads.append (h : L.Reads code ps) (h' : L.Reads more qs) :
    L.Reads (code ++ more) (ps ++ qs) := by
  intro o
  rw [String.toList_append, List.foldl_append, h, h', Outline.addAll_addAll]

theorem Reads.spells (h : L.Reads code ps) : L.Spells code ps := by
  intro o c _
  rw [List.foldl_append, h]
  rfl

theorem Reads.append_spells (h : L.Reads code ps) (h' : L.Spells more qs) :
    L.Spells (code ++ more) (ps ++ qs) := by
  intro o c hc
  rw [String.toList_append, List.append_assoc, List.foldl_append, h, h' _ c hc,
    Outline.addAll_addAll]

theorem Spells.append (h : L.Spells code ps) (hstops : L.StopsAt more) (h' : L.Spells more qs) :
    L.Spells (code ++ more) (ps ++ qs) := by
  intro o c hc
  rw [← Outline.addAll_addAll, ← h' _ c hc, String.toList_append]
  -- what follows the first piece is the head of the second, or of what follows that
  cases hmore : more.toList with
  | nil => rw [List.append_nil, h o c hc]; rfl
  | cons d rest =>
      have hd := h o d (hstops d (by rw [hmore]; rfl))
      rw [List.append_assoc, List.cons_append, List.append_cons, List.foldl_append, hd,
        List.foldl_cons]

theorem Spells.append_reads (h : L.Spells code ps) (hstops : L.StopsAt more) (hne : more ≠ "")
    (h' : L.Reads more qs) : L.Reads (code ++ more) (ps ++ qs) := by
  intro o
  obtain ⟨c, rest, hmore⟩ := List.exists_cons_of_ne_nil
    (fun hnil ↦ hne (String.toList_eq_nil_iff.mp hnil) : more.toList ≠ [])
  have hread := h o c (hstops c (by rw [hmore]; rfl))
  rw [← Outline.addAll_addAll, ← h', String.toList_append, hmore, List.append_cons,
    List.foldl_append, hread, List.foldl_cons]

theorem stopsAt_of_head {c : Char} (h : code.toList.head? = some c) (hc : L.Stops c) :
    L.StopsAt code := by
  intro d hd
  rwa [Option.mem_unique hd h]

theorem stopsAt_append (h : L.StopsAt code) (hne : code ≠ "") (more : String) :
    L.StopsAt (code ++ more) := by
  intro c hc
  obtain ⟨d, rest, hcode⟩ := List.exists_cons_of_ne_nil
    (fun hnil ↦ hne (String.toList_eq_nil_iff.mp hnil) : code.toList ≠ [])
  rw [String.toList_append, hcode] at hc
  exact h c (by rw [hcode]; exact hc)

theorem StopsAt.append (h : L.StopsAt code) (h' : L.StopsAt more) : L.StopsAt (code ++ more) := by
  rcases eq_or_ne code "" with rfl | hne
  · rwa [String.empty_append]
  · exact stopsAt_append h hne more

theorem stops_of_isBlank {c : Char} (h : isBlank c = true) : L.Stops c := L.isBlank_stops c h

theorem Spells.reads_blank (h : L.Spells code ps) {c : Char} (hc : isBlank c = true)
    {blank : String} (hblank : blank.toList = [c]) : L.Reads (code ++ blank) ps := by
  intro o
  have hstops : L.Stops c := stops_of_isBlank hc
  have hread := h o c hstops
  rw [String.toList_append, hblank, hread]
  simp [step, start, hstops.1, hstops.2, hc]

theorem Spells.reads_space (h : L.Spells code ps) : L.Reads (code ++ " ") ps :=
  h.reads_blank (c := ' ') rfl rfl

theorem Spells.reads_line (h : L.Spells code ps) : L.Reads (code ++ "\n") ps :=
  h.reads_blank (c := '\n') rfl rfl

/-- Blocks of lines are read one after the other. -/
theorem reads_flatMap {α : Type} {items : List α} {lines : α → List String}
    {read : α → List Piece} (h : ∀ a ∈ items, L.Reads (unlines (lines a)) (read a)) :
    L.Reads (unlines (items.flatMap lines)) (items.flatMap read) := by
  induction items with
  | nil => exact reads_nil
  | cons a items ih =>
      obtain ⟨ha, hitems⟩ := List.forall_mem_cons.mp h
      rw [List.flatMap_cons, List.flatMap_cons, unlines_append]
      exact ha.append (ih hitems)

theorem reads_unlines {α : Type} {items : List α} {line : α → String} {read : α → List Piece}
    (h : ∀ a ∈ items, L.Spells (line a) (read a)) :
    L.Reads (unlines (items.map line)) (items.flatMap read) := by
  rw [List.map_eq_flatMap]
  refine reads_flatMap fun a ha ↦ ?_
  rw [unlines_singleton]
  exact (h a ha).reads_line

/-- Pieces with something between them. -/
theorem spells_intercalate {α : Type} {separator : String} {between : List Piece}
    (hseparator : L.Reads separator between) (hstops : L.StopsAt separator)
    (hne : separator ≠ "") {items : List α} {write : α → String} {read : α → List Piece}
    (h : ∀ a ∈ items, L.Spells (write a) (read a)) :
    L.Spells (separator.intercalate (items.map write)) (between.intercalate (items.map read)) := by
  induction items with
  | nil => exact reads_nil.spells
  | cons a items ih =>
      obtain ⟨ha, hitems⟩ := List.forall_mem_cons.mp h
      cases items with
      | nil => simpa using ha
      | cons next items =>
          have hrest := hseparator.append_spells (ih hitems)
          have hspells := ha.append (stopsAt_append hstops hne _) hrest
          simpa [String.intercalate_cons_cons, List.intercalate_cons_cons, String.append_assoc]
            using hspells

/-! ## Comments -/

/-- A comment as far as the end of its line is no code. -/
theorem reads_lineComment {opening body : String}
    (hopening : ∀ o, opening.toList.foldl L.step ⟨o, .free⟩ = ⟨o, .line⟩)
    (hline : L.isLineEnd '\n' = true) (h : body.toList.all (!L.isLineEnd ·) = true) :
    L.Reads (opening ++ body ++ "\n") [] := by
  have hinside (o : Outline) {cs : List Char} (hcs : cs.all (!L.isLineEnd ·) = true) :
      cs.foldl L.step ⟨o, .line⟩ = ⟨o, .line⟩ := by
    induction cs with
    | nil => rfl
    | cons c cs ih =>
        rw [List.all_cons, Bool.and_eq_true, Bool.not_eq_true'] at hcs
        have hstep : L.step ⟨o, .line⟩ c = ⟨o, .line⟩ := by simp [step, hcs.1]
        rw [List.foldl_cons, hstep, ih hcs.2]
  intro o
  rw [String.toList_append, String.toList_append, List.foldl_append, List.foldl_append, hopening,
    hinside o h]
  simp [step, hline, Outline.addAll]

/-! ## Words -/

def IsWord (L : Language) (w : String) : Prop := w ≠ "" ∧ ∀ c ∈ w.toList, L.isLetter c = true

theorem foldl_letters {cs : List Char} (h : ∀ c ∈ cs, L.isLetter c = true) (o : Outline)
    (letters : List Char) :
    cs.foldl L.step ⟨o, .word letters⟩ = ⟨o, .word (letters ++ cs)⟩ := by
  induction cs generalizing letters with
  | nil => simp
  | cons c cs ih =>
      obtain ⟨hc, hcs⟩ := List.forall_mem_cons.mp h
      have hstep : L.step ⟨o, .word letters⟩ c = ⟨o, .word (letters ++ [c])⟩ := if_pos hc
      rw [List.foldl_cons, hstep, ih hcs, List.append_assoc, List.singleton_append]

theorem spells_of_word {w : String}
    (h : ∀ o, code.toList.foldl L.step ⟨o, .free⟩ = ⟨o.addAll ps, .word w.toList⟩) :
    L.Spells code (ps ++ [.word w]) := by
  intro o c hc
  have hend : L.step ⟨o.addAll ps, .word w.toList⟩ c =
      L.start ((o.addAll ps).add (.word (String.ofList w.toList))) c :=
    if_neg (by simp [hc.1])
  rw [List.foldl_append, h, List.foldl_cons, List.foldl_nil, hend, String.ofList_toList,
    ← Outline.addAll_addAll]
  rfl

theorem spells_word {w : String} (h : L.IsWord w) : L.Spells w [.word w] := by
  obtain ⟨hne, hletters⟩ := h
  obtain ⟨first, rest, hw⟩ := List.exists_cons_of_ne_nil
    (fun hnil ↦ hne (String.toList_eq_nil_iff.mp hnil) : w.toList ≠ [])
  rw [hw] at hletters
  obtain ⟨hfirst, hrest⟩ := List.forall_mem_cons.mp hletters
  have hread (o : Outline) : w.toList.foldl L.step ⟨o, .free⟩ = ⟨o.addAll [], .word w.toList⟩ := by
    have hstart : L.step ⟨o, .free⟩ first = ⟨o, .word [first]⟩ := if_pos hfirst
    rw [hw, List.foldl_cons, hstart, foldl_letters hrest, List.singleton_append]
    rfl
  exact spells_of_word hread

/-! ## Literals -/

variable {t : Token} {quote : Char} {content : List Char}

/-- Before the end of a literal nothing is complete, but for quotes that are doubled. -/
theorem foldl_literal (h : L.literal quote content = some (t, [])) (o : Outline)
    {front back : List Char} (hne : front ≠ []) (hcontent : front ++ back = content) :
    front.foldl L.step ⟨o, .quoted quote []⟩ = L.inside o quote front := by
  induction front using List.reverseRecOn generalizing back with
  | nil => exact absurd rfl hne
  | append_singleton front c ih =>
      rw [List.foldl_append, List.foldl_cons, List.foldl_nil]
      rcases eq_or_ne front [] with rfl | hfront
      · rfl
      have hback : front ++ c :: back = content := by simpa using hcontent
      rw [ih hfront hback, inside]
      split
      · next closed hclosed =>
          by_cases hdouble : L.doubles = true ∧ c = quote
          · exact if_pos (by simpa using hdouble)
          · have hread := L.literal_append hclosed hdouble back
            rw [hback, h] at hread
            cases hread
      · rfl

/-- A literal from its quote to its end is one token. -/
theorem spells_literal (hletter : L.isLetter quote = false) (hquote : L.isQuote quote = true)
    (h : L.literal quote content = some (t, [])) (hne : content ≠ []) :
    L.Spells (String.ofList (quote :: content)) [.token t] := by
  intro o c hc
  have hopen : L.step ⟨o, .free⟩ quote = ⟨o, .quoted quote []⟩ :=
    (if_neg (by simp [hletter])).trans (if_pos hquote)
  have hclosed : L.inside o quote content = ⟨o, .closed quote content t⟩ := by
    rw [inside, h]
  have hother : c ≠ quote := by
    rintro rfl
    exact absurd hc.2 (by simp [hquote])
  have hread : (quote :: content).foldl L.step ⟨o, .free⟩ = ⟨o, .closed quote content t⟩ := by
    rw [List.foldl_cons, hopen, foldl_literal h o hne (List.append_nil content), hclosed]
  rw [String.toList_ofList, List.foldl_append, hread, List.foldl_cons, List.foldl_nil]
  exact if_neg (by simp [hother])

/-! ## Groups -/

structure Brackets (L : Language) (opening ending : Char) : Prop where
  stops : L.Stops ending
  opens : ∀ o : Outline,
    L.step ⟨o, .free⟩ opening = ⟨⟨[], (opening, o.done) :: o.outer⟩, .free⟩
  closes : ∀ done before outer,
    L.step ⟨⟨done, (opening, before) :: outer⟩, .free⟩ ending =
      ⟨⟨.group opening done.reverse :: before, outer⟩, .free⟩

variable {opening ending : Char} {left right : String}

theorem Brackets.reads (hbrackets : L.Brackets opening ending) (hleft : left.toList = [opening])
    (hright : right.toList = [ending]) (h : L.Spells code ps) :
    L.Reads (left ++ code ++ right) [.group opening ps] := by
  intro o
  have hread := h ⟨[], (opening, o.done) :: o.outer⟩ ending hbrackets.stops
  simp only [Outline.addAll, List.append_nil, hbrackets.closes, List.reverse_reverse] at hread
  simpa [hleft, hright, hbrackets.opens o, Outline.addAll] using hread

/-- A group that begins at the end of a line and ends at the start of another. -/
theorem Brackets.reads_block (hbrackets : L.Brackets opening ending)
    (hleft : left.toList = [opening]) (hright : right.toList = [ending])
    {front body back : String} (hfront : L.Reads front ps) {inner : List Piece}
    (hbody : L.Reads body inner) (hback : L.Spells back qs) :
    L.Reads (front ++ left ++ "\n" ++ body ++ (right ++ back ++ "\n"))
      (ps ++ [.group opening inner] ++ qs) := by
  have hline : L.Reads "\n" [] := reads_nil.spells.reads_line
  have hgroup := hbrackets.reads hleft hright (hline.append hbody).spells
  have hread := (hfront.append hgroup).append hback.reads_line
  simpa [String.append_assoc] using hread

end Language

/-! ## Dividing a group -/

def splitAt (c : Char) (ps : List Piece) : List (List Piece) := ps.splitOnP (Piece.isMark c)

/-- The parts of a group that each end in a mark, which the last one does not need. -/
def endedBy (c : Char) (ps : List Piece) : List (List Piece) :=
  match (splitAt c ps).getLast? with
  | some [] => (splitAt c ps).dropLast
  | _ => splitAt c ps

def Lacks (c : Char) (ps : List Piece) : Prop := ∀ p ∈ ps, p.isMark c = false

section

variable {c : Char} {ps qs : List Piece} {parts : List (List Piece)}

theorem lacks_append : Lacks c (ps ++ qs) ↔ Lacks c ps ∧ Lacks c qs := List.forall_mem_append

theorem lacks_intercalate {d : Char} (hd : d ≠ c) (h : ∀ ps ∈ parts, Lacks c ps) :
    Lacks c ([.mark d].intercalate parts) := by
  induction parts with
  | nil => exact List.forall_mem_nil _
  | cons ps parts ih =>
      obtain ⟨hps, hparts⟩ := List.forall_mem_cons.mp h
      cases parts with
      | nil => rwa [List.intercalate_singleton]
      | cons qs parts =>
          have hmark : Lacks c [.mark d] := List.forall_mem_singleton.mpr (by simpa [Piece.isMark])
          rw [List.intercalate_cons_cons]
          exact lacks_append.mpr ⟨lacks_append.mpr ⟨hps, hmark⟩, ih hparts⟩

theorem splitAt_append (h : Lacks c ps) (qs : List Piece) :
    splitAt c (ps ++ .mark c :: qs) = ps :: splitAt c qs :=
  List.splitOnP_append_cons_of_forall_mem h _ (by simp [Piece.isMark]) _

theorem splitAt_of_lacks (h : Lacks c ps) : splitAt c ps = [ps] := List.splitOnP_eq_singleton h

theorem splitAt_intercalate (hne : parts ≠ []) (h : ∀ ps ∈ parts, Lacks c ps) :
    splitAt c ([.mark c].intercalate parts) = parts := by
  induction parts with
  | nil => exact absurd rfl hne
  | cons ps parts ih =>
      obtain ⟨hps, hparts⟩ := List.forall_mem_cons.mp h
      cases parts with
      | nil => rw [List.intercalate_singleton, splitAt_of_lacks hps]
      | cons qs parts =>
          rw [List.intercalate_cons_cons, List.append_assoc, List.singleton_append,
            splitAt_append hps, ih (List.cons_ne_nil _ _) hparts]

theorem splitAt_flatMap (h : ∀ ps ∈ parts, Lacks c ps) :
    splitAt c (parts.flatMap (· ++ [.mark c])) = parts ++ [[]] := by
  induction parts with
  | nil => rfl
  | cons ps parts ih =>
      obtain ⟨hps, hparts⟩ := List.forall_mem_cons.mp h
      rw [List.flatMap_cons, List.append_assoc, List.singleton_append, splitAt_append hps,
        ih hparts, List.cons_append]

theorem endedBy_flatMap (h : ∀ ps ∈ parts, Lacks c ps) :
    endedBy c (parts.flatMap (· ++ [.mark c])) = parts := by
  rw [endedBy, splitAt_flatMap h, List.getLast?_concat, List.dropLast_concat]

end

end Scaffold

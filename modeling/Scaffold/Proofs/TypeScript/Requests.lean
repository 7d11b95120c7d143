import Scaffold.Proofs.Naming.Characters
import Scaffold.Proofs.TypeScript.Syntax

/-!
# Requests

The module of an entity has an object with a route for each operation, and the client has an object
with a call for each.  A route is an object with a method and a path, and a call passes both to the
function that the client is made from.  The two write the path in different ways; what is read is
the same.
-/

namespace Scaffold.TypeScript

open Naming

/-! ## Objects -/

def entry? : List Piece → Option (String × List Piece)
  | .word key :: .mark ':' :: value => if isIdentifier key then some (key, value) else none
  | _ => none

def entries? (inner : List Piece) : Option (List (String × List Piece)) :=
  (endedBy ',' inner).mapM entry?

def entryPieces (key : String) (value : List Piece) : List Piece :=
  .word key :: .mark ':' :: value ++ [.mark ',']

theorem entries?_flatMap {α : Type} {items : List α} {key : α → String} {value : α → List Piece}
    (hkey : ∀ a ∈ items, isIdentifier (key a) = true) (hvalue : ∀ a ∈ items, Lacks ',' (value a)) :
    entries? (items.flatMap fun a ↦ entryPieces (key a) (value a)) =
      some (items.map fun a ↦ (key a, value a)) := by
  have hended : endedBy ',' ((items.map fun a ↦ .word (key a) :: .mark ':' :: value a).flatMap
      (· ++ [.mark ','])) = items.map fun a ↦ .word (key a) :: .mark ':' :: value a :=
    endedBy_flatMap (List.forall_mem_map.mpr fun a ha ↦
      List.forall_mem_cons.mpr ⟨rfl, List.forall_mem_cons.mpr ⟨rfl, hvalue a ha⟩⟩)
  rw [List.flatMap_map] at hended
  rw [entries?]
  refine (congrArg (List.mapM entry?) hended).trans (mapM_of_forall fun a ha ↦ ?_)
  exact if_pos (hkey a ha)

theorem spells_entry {key code : String} {value : List Piece} (hkey : isIdentifier key = true)
    (hcode : language.Spells code value) :
    language.Spells (key ++ ": " ++ code ++ ",") (entryPieces key value) := by
  have hcolon : language.Reads ": " [.mark ':'] := fun _ ↦ rfl
  have hcomma : language.Reads "," [.mark ','] := fun _ ↦ rfl
  exact (((spells_identifier hkey).append_reads (Language.stopsAt_of_head rfl ⟨rfl, rfl⟩)
    (by decide) hcolon).append_spells hcode).append (Language.stopsAt_of_head rfl ⟨rfl, rfl⟩)
      hcomma.spells

/-! ## Reading requests -/

def literal? : List Piece → Option String
  | [.text s] | [.template s] => some s
  | _ => none

def route? : List Piece → Option (String × String)
  | [.group '\x7b' inner] => do
      let members ← entries? inner
      let method ← (members.lookup "method").bind literal?
      let path ← (members.lookup "path").bind literal?
      return (method, path)
  | _ => none

def passed? : Piece → Option (String × String)
  | .group '(' inner =>
      match splitAt ',' inner with
      | method :: path :: _ => (literal? method).bind fun m ↦ (literal? path).map (m, ·)
      | _ => none
  | _ => none

/-- The method and the path that a call passes to the function `fetcher`. -/
def call? : List Piece → Option (String × String)
  | .group '(' _ :: .mark '=' :: .mark '>' :: .word "fetcher" :: rest => rest.getLast?.bind passed?
  | _ => none

/-- The requests that the entries of an object describe, under their keys. -/
def requests? (request? : List Piece → Option (String × String)) (inner : List Piece) :
    Option (List (String × String × String)) :=
  (entries? inner).bind (·.mapM fun e ↦ (request? e.2).map (e.1, ·))

def group? : List Piece → Option (List (String × String × String))
  | [.group '\x7b' inner] => requests? call? inner
  | _ => none

def client? : List Piece → Option (List (String × List (String × String × String)))
  | [.word "return", .group '\x7b' inner, .mark ';'] =>
      (entries? inner).bind (·.mapM fun e ↦ (group? e.2).map (e.1, ·))
  | _ => none

/-! ## Paths -/

/-- Characters that stand for themselves, in quotes as well as in a template. -/
def IsBare (cs : List Char) : Prop :=
  ∀ c ∈ cs, c ≠ '\x27' ∧ c ≠ '\\' ∧ c ≠ '\x60' ∧ c ≠ '$' ∧ c ≠ '\n' ∧ c ≠ '\r'

theorem isBare_append {s t : String} :
    IsBare (s ++ t).toList ↔ IsBare s.toList ∧ IsBare t.toList := by
  simp only [IsBare, String.toList_append, List.forall_mem_append]

theorem isBare_of_isName {s : String} (h : IsName s) : IsBare s.toList := by
  intro c hc
  have hname := h c hc
  refine ⟨?_, ?_, ?_, ?_, ?_, ?_⟩ <;> rintro rfl <;> cases hname

theorem IsBare.onOneLine {cs : List Char} (h : IsBare cs) : OnOneLine cs :=
  ⟨fun hmem ↦ (h _ hmem).2.2.2.2.1 rfl, fun hmem ↦ (h _ hmem).2.2.2.2.2 rfl⟩

theorem escapeText_of_isBare {cs : List Char} (h : IsBare cs) : escapeText cs = cs := by
  induction cs with
  | nil => rfl
  | cons c cs ih =>
      obtain ⟨⟨hquote, hslash, -⟩, hcs⟩ := List.forall_mem_cons.mp h
      rw [escapeText, if_neg (by simp [hquote, hslash]), ih hcs]

theorem quoteText_of_isBare {s : String} (h : IsBare s.toList) :
    quoteText s = "'" ++ s ++ "'" := by
  apply String.toList_inj.mp
  rw [quoteText, escapeText_of_isBare h]
  simp

/-- The variable in a template is read as the identifier that it stands for. -/
theorem readTemplate_insertVariable {cs : List Char} (h : IsBare cs) :
    readTemplate (insertVariable cs ++ ['\x60']) = some (cs, []) := by
  induction cs using insertVariable.induct with
  | case1 rest ih =>
      have hrest := fun c hc ↦ h c (List.mem_append_right [':', 'i', 'd'] hc)
      have hinsert : insertVariable (':' :: 'i' :: 'd' :: rest) ++ ['\x60'] =
          '$' :: '\x7b' :: 'i' :: 'd' :: '\x7d' :: (insertVariable rest ++ ['\x60']) := rfl
      rw [hinsert, readTemplate, ih hrest]
      rfl
  | case2 c rest hother ih =>
      obtain ⟨⟨-, hslash, htick, hdollar, -, hreturn⟩, hrest⟩ := List.forall_mem_cons.mp h
      rw [insertVariable, List.cons_append, readTemplate_cons htick fun hc ↦ absurd hc hdollar,
        if_neg (by simp [hslash, hreturn]), ih hrest]
      · rfl
      · exact hother
  | case3 => rfl

/-- A path is read back from its expression, whichever kind of literal that is. -/
theorem exists_spells_pathExpression {path : String} (h : IsBare path.toList) :
    ∃ p, language.Spells (pathExpression path) [p] ∧ literal? [p] = some path ∧
      p.isMark ',' = false := by
  rw [pathExpression]
  split
  · have hliteral : language.literal '\x60' (insertVariable path.toList ++ ['\x60']) =
        some (.template path, []) := by
      simp [language, readTemplate_insertVariable h, asToken]
    have hspells := Language.spells_literal rfl rfl hliteral (by simp)
    have hcode : String.ofList ('\x60' :: (insertVariable path.toList ++ ['\x60'])) =
        "`" ++ String.ofList (insertVariable path.toList) ++ "`" := by
      apply String.toList_inj.mp
      simp
    exact ⟨.template path, hcode ▸ hspells, rfl, rfl⟩
  · exact ⟨.text path, quoteText_of_isBare h ▸ spells_quoteText h.onOneLine, rfl, rfl⟩

/-! ## Routes -/

theorem isBare_method (op : Operation) : IsBare (method op).toList := by
  cases op <;> simp [IsBare, method]

theorem isIdentifier_operation (op : Operation) : isIdentifier op.name = true := by
  cases op <;> rfl

theorem spells_flag (b : Bool) : language.Spells (flag b) [.word (flag b)] := by
  cases b <;> exact spells_identifier rfl

namespace Route

def inner (r : Route) : List Piece :=
  [.word "method", .mark ':', .text r.method, .mark ',', .word "path", .mark ':', .text r.path,
    .mark ',', .word "auth", .mark ':', .word (flag r.needsAuth)]

/-- A route is an entry under its operation. -/
theorem spells_render {r : Route} (hmethod : IsBare r.method.toList)
    (hpath : OnOneLine r.path.toList) :
    language.Spells r.render (entryPieces r.operation.name [.group '\x7b' r.inner]) := by
  have hmethod' : language.Reads " method: " [.word "method", .mark ':'] := fun _ ↦ rfl
  have hpath' : language.Reads ", path: " [.mark ',', .word "path", .mark ':'] := fun _ ↦ rfl
  have hauth : language.Reads ", auth: " [.mark ',', .word "auth", .mark ':'] := fun _ ↦ rfl
  have hinner := (((hmethod'.append_spells (spells_quoteText hmethod.onOneLine)).append_reads
    (Language.stopsAt_of_head rfl ⟨rfl, rfl⟩) (by decide) hpath').append_spells
    (spells_quoteText hpath)).append_reads (Language.stopsAt_of_head rfl ⟨rfl, rfl⟩) (by decide)
    hauth |>.append_spells (spells_flag r.needsAuth) |>.reads_space
  have hopening : "\x7b".toList = ['\x7b'] := rfl
  have hending : "\x7d".toList = ['\x7d'] := rfl
  have hgroup := braces.reads hopening hending hinner.spells
  have hentry := spells_entry (isIdentifier_operation r.operation) hgroup.spells
  have hcode : r.operation.name ++ ": " ++ ("\x7b" ++ (" method: " ++ quoteText r.method ++
      ", path: " ++ quoteText r.path ++ ", auth: " ++ flag r.needsAuth ++ " ") ++ "\x7d") ++ "," =
      r.render := by
    rw [quoteText_of_isBare hmethod]
    apply String.toList_inj.mp
    simp [render, toString]
  rw [← hcode]
  exact hentry

theorem route?_inner (r : Route) : route? [.group '\x7b' r.inner] = some (r.method, r.path) := rfl

end Route

/-! ## Calls -/

theorem isIdentifier_input {entity : String} (h : isIdentifier entity = true) :
    isIdentifier (createInput entity) = true ∧ isIdentifier (updateInput entity) = true :=
  have hletters := all_isLetter_of_isIdentifier h
  ⟨isIdentifier_append (isIdentifier_append rfl hletters) rfl,
    isIdentifier_append (isIdentifier_append rfl hletters) rfl⟩

namespace Call

def parameters (c : Call) : String :=
  match c.operation with
  | .list => ""
  | .get | .remove => "id: string"
  | .create => "input: " ++ createInput c.entity
  | .update => "id: string, input: " ++ updateInput c.entity

def result (c : Call) : String :=
  match c.operation with
  | .list => c.entity ++ "[]"
  | .get | .create | .update => c.entity
  | .remove => "void"

def body (c : Call) : String :=
  match c.operation with
  | .list | .get | .remove => ""
  | .create | .update => ", input"

theorem render_eq {c : Call} (h : IsBare c.method.toList) :
    c.render = c.operation.name ++ ": " ++ ("(" ++ c.parameters ++ ")" ++ " => fetcher<" ++
      c.result ++ ">" ++ ("(" ++ (quoteText c.method ++ ", " ++ pathExpression c.path ++ c.body) ++
        ")")) ++ "," := by
  rw [quoteText_of_isBare h]
  apply String.toList_inj.mp
  rcases c with ⟨op, entity, method, path⟩
  cases op <;> simp [render, parameters, result, body, Operation.name, toString]

/-- The parameters of a call can be read. -/
theorem exists_spells_parameters {c : Call} (h : isIdentifier c.entity = true) :
    ∃ ps, language.Spells c.parameters ps := by
  have hid : language.Spells "id: string" ([.word "id", .mark ':'] ++ [.word "string"]) :=
    Language.spells_of_word fun _ ↦ rfl
  have hinput : language.Reads "input: " [.word "input", .mark ':'] := fun _ ↦ rfl
  have hboth : language.Reads "id: string, input: " [.word "id", .mark ':', .word "string",
    .mark ',', .word "input", .mark ':'] := fun _ ↦ rfl
  obtain ⟨hcreate, hupdate⟩ := isIdentifier_input h
  rw [parameters]
  split
  · exact ⟨[], Language.reads_nil.spells⟩
  · exact ⟨_, hid⟩
  · exact ⟨_, hid⟩
  · exact ⟨_, hinput.append_spells (spells_identifier hcreate)⟩
  · exact ⟨_, hboth.append_spells (spells_identifier hupdate)⟩

theorem exists_spells_result {c : Call} (h : isIdentifier c.entity = true) :
    ∃ ps, language.Spells c.result ps ∧ Lacks ',' ps := by
  have hlist : language.Reads "[]" [.group '[' []] := fun _ ↦ rfl
  rw [result]
  split
  · exact ⟨_, (spells_identifier h).append (Language.stopsAt_of_head rfl ⟨rfl, rfl⟩) hlist.spells,
      by simp [Lacks, Piece.isMark]⟩
  · exact ⟨_, spells_identifier h, by simp [Lacks, Piece.isMark]⟩
  · exact ⟨_, spells_identifier h, by simp [Lacks, Piece.isMark]⟩
  · exact ⟨_, spells_identifier h, by simp [Lacks, Piece.isMark]⟩
  · exact ⟨_, spells_identifier rfl, by simp [Lacks, Piece.isMark]⟩

/-- The body that a call passes is an argument of its own, or there is none. -/
theorem exists_spells_body (c : Call) :
    ∃ ps, language.Spells c.body ps ∧ language.StopsAt c.body ∧
      (ps = [] ∨ ∃ tail, ps = .mark ',' :: tail) := by
  have hnone : language.StopsAt "" := fun _ h ↦ nomatch h
  have hinput : language.Spells ", input" ([.mark ','] ++ [.word "input"]) :=
    Language.spells_of_word fun _ ↦ rfl
  have hcomma : language.StopsAt ", input" := Language.stopsAt_of_head rfl ⟨rfl, rfl⟩
  rw [body]
  split
  · exact ⟨[], Language.reads_nil.spells, hnone, .inl rfl⟩
  · exact ⟨[], Language.reads_nil.spells, hnone, .inl rfl⟩
  · exact ⟨[], Language.reads_nil.spells, hnone, .inl rfl⟩
  · exact ⟨_, hinput, hcomma, .inr ⟨_, rfl⟩⟩
  · exact ⟨_, hinput, hcomma, .inr ⟨_, rfl⟩⟩

theorem exists_splitAt_eq {m p : Piece} (hm : m.isMark ',' = false) (hp : p.isMark ',' = false)
    {ps : List Piece} (hps : ps = [] ∨ ∃ tail, ps = .mark ',' :: tail) :
    ∃ more, splitAt ',' (m :: .mark ',' :: p :: ps) = [m] :: [p] :: more := by
  have hfirst : splitAt ',' (m :: .mark ',' :: p :: ps) = [m] :: splitAt ',' (p :: ps) :=
    splitAt_append (List.forall_mem_singleton.mpr hm) _
  rw [hfirst]
  rcases hps with rfl | ⟨tail, rfl⟩
  · exact ⟨[], by rw [splitAt_of_lacks (List.forall_mem_singleton.mpr hp)]⟩
  · exact ⟨_, congrArg _ (splitAt_append (List.forall_mem_singleton.mpr hp) tail)⟩

theorem call?_eq {method path inner params type : List Piece} {more : List (List Piece)}
    (h : splitAt ',' inner = method :: path :: more) :
    call? (.group '(' params :: .mark '=' :: .mark '>' :: .word "fetcher" ::
      (type ++ [.group '(' inner])) =
      (literal? method).bind fun m ↦ (literal? path).map (m, ·) := by
  change (type ++ [Piece.group '(' inner]).getLast?.bind passed? = _
  rw [List.getLast?_concat, Option.bind_some]
  simp only [passed?, h]

/-- A call is read as its method and its path. -/
theorem exists_value {c : Call} (h : isIdentifier c.entity = true)
    (hmethod : IsBare c.method.toList) (hpath : IsBare c.path.toList) :
    ∃ value, language.Spells c.render (entryPieces c.operation.name value) ∧ Lacks ',' value ∧
      call? value = some (c.method, c.path) := by
  obtain ⟨params, hparams⟩ := exists_spells_parameters h
  obtain ⟨type, htype, hlacks⟩ := exists_spells_result h
  obtain ⟨p, hp, hliteral, hcomma⟩ := exists_spells_pathExpression hpath
  obtain ⟨rest, hrest, hstops, hbody⟩ := exists_spells_body c
  obtain ⟨more, hmore⟩ := exists_splitAt_eq (m := .text c.method) rfl hcomma hbody
  have hopening : "(".toList = ['('] := rfl
  have hending : ")".toList = [')'] := rfl
  have harrow : language.Reads " => fetcher<" [.mark '=', .mark '>', .word "fetcher", .mark '<'] :=
    fun _ ↦ rfl
  have hclose : language.Reads ">" [.mark '>'] := fun _ ↦ rfl
  have hbetween : language.Reads ", " [.mark ','] := fun _ ↦ rfl
  have hpassed := parentheses.reads hopening hending
    ((((spells_quoteText hmethod.onOneLine).append_reads
      (Language.stopsAt_of_head rfl ⟨rfl, rfl⟩) (by decide) hbetween).append_spells hp).append
        hstops hrest)
  have hfront := ((parentheses.reads hopening hending hparams).append harrow).append_spells htype
    |>.append_reads (Language.stopsAt_of_head rfl ⟨rfl, rfl⟩) (by decide) hclose
  have hentry := spells_entry (isIdentifier_operation c.operation) (hfront.append hpassed).spells
  rw [← render_eq hmethod] at hentry
  refine ⟨.group '(' params :: .mark '=' :: .mark '>' :: .word "fetcher" ::
    ((.mark '<' :: type ++ [.mark '>']) ++ [.group '(' (.text c.method :: .mark ',' :: p :: rest)]),
    ?_, ?_, ?_⟩
  · simpa [entryPieces] using hentry
  · have hangles : Lacks ',' (.mark '<' :: type ++ [.mark '>']) :=
      lacks_append.mpr ⟨List.forall_mem_cons.mpr ⟨rfl, hlacks⟩, List.forall_mem_singleton.mpr rfl⟩
    have hvalue := lacks_append.mpr ⟨hangles, List.forall_mem_singleton.mpr
      (rfl : Piece.isMark ',' (.group '(' (.text c.method :: .mark ',' :: p :: rest)) = false)⟩
    have hfirst : Lacks ',' [.group '(' params, .mark '=', .mark '>', .word "fetcher"] := by
      simp [Lacks, Piece.isMark]
    exact lacks_append.mpr ⟨hfirst, hvalue⟩
  · rw [call?_eq hmore, hliteral]
    rfl

end Call

/-! ## Groups of calls -/

theorem requests?_flatMap {α : Type} {items : List α} {key : α → String} {value : α → List Piece}
    {request? : List Piece → Option (String × String)} {request : α → String × String}
    (hkey : ∀ a ∈ items, isIdentifier (key a) = true) (hvalue : ∀ a ∈ items, Lacks ',' (value a))
    (hrequest : ∀ a ∈ items, request? (value a) = some (request a)) :
    requests? request? (items.flatMap fun a ↦ entryPieces (key a) (value a)) =
      some (items.map fun a ↦ (key a, request a)) := by
  rw [requests?, entries?_flatMap hkey hvalue, Option.bind_some]
  refine mapM_of_forall fun a ha ↦ ?_
  rw [hrequest a ha]
  rfl

end Scaffold.TypeScript

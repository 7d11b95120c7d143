import Scaffold.Proofs.Artifact.Quoting
import Scaffold.Proofs.TypeScript.Lines

/-!
# Texts in the modules

In a module a text is written in single quotes, with a backslash in front of quotes and backslashes.
Line ends are written as they are, and no literal goes on over the end of a line.  So a text comes
back exactly if it is on one line.
-/

namespace Scaffold.TypeScript

/-! ## Reading literals -/

/-- What a backslash and the character behind it stand for.  Longer escapes, by the number of a
character, and the end of a line behind a backslash are not among them. -/
def unescape : Char → Option Char
  | 'b' => some '\x08'
  | 'f' => some '\x0c'
  | 'n' => some '\n'
  | 'r' => some '\r'
  | 't' => some '\t'
  | 'v' => some '\x0b'
  | 'x' | 'u' | '\n' | '\r' | '\u2028' | '\u2029' => none
  | c => if c.isDigit then none else some c

/-- Reads a text behind its opening quote, as far as the closing one. -/
def readBody (quote : Char) : List Char → Option (List Char × List Char)
  | [] => none
  | [c] => if c = quote then some ([], []) else none
  | c :: d :: rest =>
      if c = quote then some ([], d :: rest)
      else if c = '\n' ∨ c = '\r' then none
      else if c = '\\' then (unescape d).bind fun e ↦ (readBody quote rest).map (prepend [e])
      else (readBody quote (d :: rest)).map (prepend [c])

def OnOneLine (s : List Char) : Prop := '\n' ∉ s ∧ '\r' ∉ s

theorem onOneLine_cons {c : Char} {s : List Char} :
    OnOneLine (c :: s) ↔ ¬ (c = '\n' ∨ c = '\r') ∧ OnOneLine s := by
  simp only [OnOneLine, List.mem_cons]
  grind

section

variable {quote : Char}

theorem readBody_close (rest : List Char) : readBody quote (quote :: rest) = some ([], rest) := by
  cases rest <;> simp [readBody]

theorem readBody_escape {c : Char} (hquote : quote ≠ '\\') (h : unescape c = some c)
    (cs : List Char) :
    readBody quote ('\\' :: c :: cs) = (readBody quote cs).map (prepend [c]) := by
  simp [readBody, h, hquote.symm]

theorem readBody_cons {c : Char} (hquote : c ≠ quote) (hslash : c ≠ '\\') {cs : List Char}
    (hcs : cs ≠ []) :
    readBody quote (c :: cs) =
      if c = '\n' ∨ c = '\r' then none else (readBody quote cs).map (prepend [c]) := by
  obtain ⟨d, cs, rfl⟩ := List.exists_cons_of_ne_nil hcs
  rw [readBody, if_neg hquote, if_neg hslash]

end

/-- An escaped text is read back exactly if it is on one line. -/
theorem readBody_escapeText_iff (rest s : List Char) :
    readBody '\x27' (escapeText s ++ '\x27' :: rest) = some (s, rest) ↔ OnOneLine s := by
  induction s with
  | nil => simp [escapeText, readBody_close, OnOneLine]
  | cons c s ih =>
      rw [onOneLine_cons, ← ih, escapeText]
      by_cases hescaped : c = '\\' ∨ c = '\x27'
      · have hunescape : unescape c = some c := by rcases hescaped with rfl | rfl <;> decide
        have hline : ¬ (c = '\n' ∨ c = '\r') := by rcases hescaped with rfl | rfl <;> decide
        rw [if_pos (by simpa using hescaped), List.cons_append, List.cons_append,
          readBody_escape (by decide) hunescape, and_iff_right hline]
        exact map_prepend_eq_some_iff
      · obtain ⟨hslash, hquote⟩ := not_or.mp hescaped
        rw [if_neg (by simpa using hescaped), List.cons_append,
          readBody_cons hquote hslash (by simp)]
        by_cases hline : c = '\n' ∨ c = '\r'
        · simp [hline]
        · rw [if_neg hline, and_iff_right hline]
          exact map_prepend_eq_some_iff

def quoting : Quoting where
  write := quoteText
  read := readQuoted (readBody '\x27')
  Safe s := OnOneLine s.toList
  read_write_iff _ := by rw [quoteText, readQuoted_eq_some_iff, readBody_escapeText_iff]

/-! ## Literals in blocks -/

section

variable {text header close cue back : String} {items : List String}

theorem carriesAll_of_mem_block {separator : String} {values : List String}
    (hlines : HasLines text (blockLines "" header close items))
    (hitem : cue ++ separator.intercalate (values.map quoteText) ++ back ∈ items)
    (hseparator : OpensPlain separator) (hback : OpensPlain (back ++ "\n")) :
    quoting.CarriesAll text (unlines (blockLines "" header close items)) ("\n  " ++ cue) separator
      values := by
  have hmem : "  " ++ (cue ++ separator.intercalate (values.map quoteText) ++ back) ∈
      items.map ("" ++ "  " ++ ·) ++ ["" ++ close] :=
    List.mem_append_left _ (List.mem_map_of_mem hitem)
  exact Quoting.carriesAll_of_mem hlines hmem rfl (fun _ ↦ hseparator) hback

theorem carries_of_mem_block {s : String}
    (hlines : HasLines text (blockLines "" header close items))
    (hitem : cue ++ quoteText s ++ back ∈ items) (hback : OpensPlain (back ++ "\n")) :
    quoting.Carries text (unlines (blockLines "" header close items)) ("\n  " ++ cue) s := by
  have hmem : "  " ++ (cue ++ quoteText s ++ back) ∈
      items.map ("" ++ "  " ++ ·) ++ ["" ++ close] :=
    List.mem_append_left _ (List.mem_map_of_mem hitem)
  exact Quoting.carries_of_mem hlines hmem rfl hback

end

def Member.beforeType (m : Member) : String :=
  (if m.isReadonly then "readonly " else "") ++ m.name ++ (if m.isOptional then "?" else "") ++ ": "

theorem Interface.carriesAll_values {text : String} {i : Interface} (hlines : HasLines text i.lines)
    {m : Member} (hm : m ∈ i.members) {values : List String} (htype : m.type = .oneOf values) :
    quoting.CarriesAll text (unlines i.lines) ("\n  " ++ m.beforeType) " | " values := by
  have hrender : m.render = m.beforeType ++ " | ".intercalate (values.map quoteText) ++
      ((if m.isNullable then " | null" else "") ++ ";") := by
    rw [Member.render, Member.beforeType, htype, String.append_assoc]
    rfl
  have hitem := List.mem_map_of_mem (f := Member.render) hm
  rw [hrender] at hitem
  refine carriesAll_of_mem_block hlines hitem ⟨' ', rfl, by decide⟩ ?_
  cases m.isNullable
  · exact ⟨';', rfl, by decide⟩
  · exact ⟨' ', rfl, by decide⟩

namespace EntityModule

variable {text : String}

theorem hasLines_record (heading : String) (m : EntityModule) :
    HasLines (m.render heading) m.record.lines := by
  obtain ⟨more, hrender⟩ := m.exists_render_eq heading
  rw [hrender]
  refine hasLines_unlines ⟨headingLines heading,
    [""] ++ m.input.lines ++ ["", m.updateLine, ""] ++ m.routeLines ++ more, ?_⟩
  simp only [lines, List.append_assoc]

theorem hasLines_input (heading : String) (m : EntityModule) :
    HasLines (m.render heading) m.input.lines := by
  obtain ⟨more, hrender⟩ := m.exists_render_eq heading
  rw [hrender]
  refine hasLines_unlines ⟨headingLines heading ++ m.record.lines ++ [""],
    ["", m.updateLine, ""] ++ m.routeLines ++ more, ?_⟩
  simp only [lines, List.append_assoc]

theorem hasLines_source (heading : String) {m : EntityModule} {r : Remote}
    (hremote : m.remote = some r) : HasLines (m.render heading) (sourceLines m.stem r) := by
  rw [render_eq, hremote]
  refine hasLines_unlines ⟨m.lines heading ++ [""], [], ?_⟩
  simp

theorem carries_baseUrl {stem : String} {r : Remote} (hlines : HasLines text (sourceLines stem r)) :
    quoting.Carries text (unlines (sourceLines stem r)) ("\n  " ++ "baseUrl: ") r.baseUrl := by
  have hcarries := carries_of_mem_block hlines List.mem_cons_self ⟨',', rfl, by decide⟩
  exact hcarries

/-- The lines on a source carry its endpoints. -/
theorem carries_endpoint {stem : String} {r : Remote} (hlines : HasLines text (sourceLines stem r))
    (op : Operation) :
    quoting.Carries text (unlines (sourceLines stem r)) ("\n  " ++ ("  " ++ op.name ++ ": "))
      (r.routes.ofOperation op) := by
  have hop : op ∈ Operation.all := by cases op <;> decide
  have hline : "  " ++ op.name ++ ": " ++ quoteText (r.routes.ofOperation op) ++ "," =
      "  " ++ s!"{op.name}: {quoteText (r.routes.ofOperation op)}," := by
    simp only [String.append_assoc]
    rfl
  have hitem : "  " ++ s!"{op.name}: {quoteText (r.routes.ofOperation op)}," ∈
      blockLines "" "endpoints: \x7b" "\x7d,"
        (Operation.all.map fun op ↦ s!"{op.name}: {quoteText (r.routes.ofOperation op)},") :=
    List.mem_append_left _ (List.mem_append_right _
      (List.mem_map_of_mem (f := ("" ++ "  " ++ ·)) (List.mem_map_of_mem hop)))
  rw [← hline] at hitem
  have hcarries :=
    carries_of_mem_block hlines (List.mem_cons_of_mem _ hitem) ⟨',', rfl, by decide⟩
  exact hcarries

end EntityModule

namespace IndexModule

variable {text : String} {m : IndexModule}

def configBlock (m : IndexModule) : List String :=
  blockLines "" "export const config = \x7b" "\x7d as const;" m.configLines

theorem hasLines_config (heading : String) (m : IndexModule) :
    HasLines (m.render heading) m.configBlock := by
  rw [render_eq]
  refine hasLines_unlines ⟨headingLines heading ++ m.exportLines ++
    if !m.modules.isEmpty then [""] else [], [], ?_⟩
  rw [lastLines, List.append_nil, List.append_assoc]
  rfl

theorem carriesAll_providers (hlines : HasLines text m.configBlock) :
    quoting.CarriesAll text (unlines m.configBlock)
      ("\n  " ++ s!"auth: \x7b enabled: {flag m.signIn.enabled}, providers: [") ", "
      m.signIn.providers := by
  have hcarries := carriesAll_of_mem_block hlines
    (List.mem_append_left _ (List.mem_append_left _ (List.mem_cons_of_mem _ List.mem_cons_self)))
    ⟨',', rfl, by decide⟩ ⟨']', rfl, by decide⟩
  exact hcarries

theorem carries_defaultLocale (hlines : HasLines text m.configBlock) :
    quoting.Carries text (unlines m.configBlock) ("\n  " ++ "defaultLocale: ")
      m.locales.default := by
  have hcarries := carries_of_mem_block hlines (List.mem_append_left _ (List.mem_append_left _
    (List.mem_cons_of_mem _ (List.mem_cons_of_mem _ List.mem_cons_self)))) ⟨',', rfl, by decide⟩
  exact hcarries

theorem carriesAll_locales (hlines : HasLines text m.configBlock) :
    quoting.CarriesAll text (unlines m.configBlock) ("\n  " ++ "locales: [") ", "
      m.locales.all := by
  have hcarries := carriesAll_of_mem_block hlines (List.mem_append_left _ (List.mem_append_left _
    (List.mem_cons_of_mem _ (List.mem_cons_of_mem _ (List.mem_cons_of_mem _
      List.mem_cons_self))))) ⟨',', rfl, by decide⟩ ⟨']', rfl, by decide⟩
  exact hcarries

theorem carries_tenantField (hlines : HasLines text m.configBlock) {field : String}
    (hfield : m.tenantField = some field) :
    quoting.Carries text (unlines m.configBlock) ("\n  " ++ "tenantField: ") field := by
  have hitem : s!"tenantField: {quoteText field}," ∈ m.configLines := by
    rw [configLines, hfield]
    exact List.mem_append_left _ (List.mem_append_right _ List.mem_cons_self)
  have hcarries := carries_of_mem_block hlines hitem ⟨',', rfl, by decide⟩
  exact hcarries

end IndexModule

end Scaffold.TypeScript

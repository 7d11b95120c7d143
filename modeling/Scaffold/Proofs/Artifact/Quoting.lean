import Scaffold.Proofs.Artifact.Lines

/-!
# Literals in written code

A literal is code that denotes a text.  Whoever reads the code has its own rules on where a literal
ends and what it denotes, and a text is carried into the code if the reader, at the place where the
literal was written, takes the whole literal and nothing more, and has the text back.
-/

namespace Scaffold

def OpensPlain (code : String) : Prop := ∃ c ∈ code.toList.head?, c ≠ '\x27'

theorem OpensPlain.append {code : String} (h : OpensPlain code) (more : String) :
    OpensPlain (code ++ more) := by
  obtain ⟨c, hc, hne⟩ := h
  refine ⟨c, ?_, hne⟩
  rw [String.toList_append, List.head?_append, Option.mem_def.mp hc]
  rfl

/-- Puts characters in front of those that have been read. -/
def prepend (cs : List Char) (p : List Char × List Char) : List Char × List Char :=
  (cs ++ p.1, p.2)

theorem map_prepend_eq_some_iff {o : Option (List Char × List Char)} {cs content rest : List Char} :
    o.map (prepend cs) = some (cs ++ content, rest) ↔ o = some (content, rest) := by
  cases o <;> simp [prepend, Prod.ext_iff]

/-- What is read to its end is read the same with more behind it. -/
theorem map_prepend_append {o o' : Option (List Char × List Char)} {cs content more : List Char}
    (ho : ∀ {content}, o = some (content, []) → o' = some (content, more))
    (h : o.map (prepend cs) = some (content, [])) : o'.map (prepend cs) = some (content, more) := by
  obtain ⟨⟨read, rest⟩, hread, heq⟩ := Option.map_eq_some_iff.mp h
  obtain ⟨rfl, rfl⟩ : cs ++ read = content ∧ rest = [] := Prod.ext_iff.mp heq
  rw [ho hread]
  rfl

def readQuoted (body : List Char → Option (List Char × List Char)) (code : String) :
    Option (String × String) :=
  match code.toList with
  | '\x27' :: cs => (body cs).map fun p ↦ (String.ofList p.1, String.ofList p.2)
  | _ => none

/-- Reading a text in quotes is reading its body up to the closing quote. -/
theorem readQuoted_eq_some_iff {body : List Char → Option (List Char × List Char)}
    {written : List Char} {s rest : String} :
    readQuoted body (String.ofList ('\x27' :: written ++ ['\x27']) ++ rest) = some (s, rest) ↔
      body (written ++ '\x27' :: rest.toList) = some (s.toList, rest.toList) := by
  have hcode : (String.ofList ('\x27' :: written ++ ['\x27']) ++ rest).toList =
      '\x27' :: (written ++ '\x27' :: rest.toList) := by
    simp
  rw [readQuoted, hcode]
  refine Option.map_eq_some_iff.trans ?_
  constructor
  · rintro ⟨⟨content, more⟩, hread, heq⟩
    obtain ⟨rfl, rfl⟩ : String.ofList content = s ∧ String.ofList more = rest :=
      Prod.ext_iff.mp heq
    simpa only [String.toList_ofList] using hread
  · intro hread
    exact ⟨_, hread, by rw [String.ofList_toList, String.ofList_toList]⟩

/-- A way of writing texts as literals, and of reading a literal that other code follows. -/
structure Quoting where
  write : String → String
  /-- The text that the literal at the start denotes, and the code behind the literal. -/
  read : String → Option (String × String)
  /-- The texts whose literals are read as they are meant. -/
  Safe : String → Prop
  read_write_iff : ∀ {s rest : String}, OpensPlain rest →
    (read (write s ++ rest) = some (s, rest) ↔ Safe s)

namespace Quoting

/-- Whether the literals of some texts stand in one part of a longer text, one after the other
behind a cue, and each is read as it is meant, with all that follows it, exactly if it is safe. -/
def CarriesAll (q : Quoting) (text part cue separator : String) (values : List String) : Prop :=
  ∃ before after front back, text = before ++ part ++ after ∧
    part = front ++ cue ++ separator.intercalate (values.map q.write) ++ back ∧
    ∀ earlier s later, values = earlier ++ s :: later → ∃ rest,
      part = front ++ cue ++ String.join (earlier.map (q.write · ++ separator)) ++ q.write s ++
        rest ∧
      (q.read (q.write s ++ (rest ++ after)) = some (s, rest ++ after) ↔ q.Safe s)

/-- The same for a single text. -/
def Carries (q : Quoting) (text part cue s : String) : Prop := q.CarriesAll text part cue "" [s]

/-- A list of quoted texts can be cut in front of each one, with code behind it. -/
theorem exists_intercalate_eq (q : Quoting) {separator : String} {values : List String}
    (hseparator : 2 ≤ values.length → OpensPlain separator) {back : String}
    (hback : OpensPlain back) {earlier later : List String} {s : String}
    (hvalues : values = earlier ++ s :: later) :
    ∃ rest, OpensPlain rest ∧ separator.intercalate (values.map q.write) ++ back =
      String.join (earlier.map (q.write · ++ separator)) ++ q.write s ++ rest := by
  -- The separator comes behind every earlier literal, so the induction is on these.
  induction earlier generalizing values with
  | nil =>
      subst hvalues
      cases later with
      | nil => exact ⟨back, hback, by simp⟩
      | cons next later =>
          refine ⟨separator ++ separator.intercalate ((next :: later).map q.write) ++ back, ?_, ?_⟩
          · exact ((hseparator (by simp)).append _).append _
          · simp [String.intercalate_cons_cons, String.append_assoc]
  | cons first earlier ih =>
      subst hvalues
      obtain ⟨rest, hrest, heq⟩ := ih (fun _ ↦ hseparator (by simp; omega)) rfl
      refine ⟨rest, hrest, ?_⟩
      have hfirst : separator.intercalate ((first :: earlier ++ s :: later).map q.write) =
          q.write first ++ separator ++
            separator.intercalate ((earlier ++ s :: later).map q.write) := by
        cases earlier <;> simp [String.intercalate_cons_cons]
      rw [hfirst, String.append_assoc, heq]
      simp [String.append_assoc]

theorem carriesAll_of_eq (q : Quoting) {text part cue separator before after front back : String}
    {values : List String} (htext : text = before ++ part ++ after)
    (hpart : part = front ++ cue ++ separator.intercalate (values.map q.write) ++ back)
    (hseparator : 2 ≤ values.length → OpensPlain separator) (hback : OpensPlain back) :
    q.CarriesAll text part cue separator values := by
  refine ⟨before, after, front, back, htext, hpart, fun earlier s later hvalues ↦ ?_⟩
  obtain ⟨rest, hrest, heq⟩ := q.exists_intercalate_eq hseparator hback hvalues
  refine ⟨rest, ?_, q.read_write_iff (hrest.append after)⟩
  rw [hpart, String.append_assoc, heq]
  simp only [String.append_assoc]

end Quoting

/-! ## Literals on lines -/

/-- A line of a text can be cut out together with the ends of the lines around it. -/
theorem exists_unlines_eq {line : String} {lines : List String} (h : line ∈ lines)
    (first : String) :
    ∃ front back, unlines (first :: lines) = front ++ ("\n" ++ line) ++ ("\n" ++ back) := by
  obtain ⟨earlier, later, rfl⟩ := List.append_of_mem h
  -- the line end in front belongs to the last of the lines before
  obtain ⟨most, last, hlast⟩ :=
    (List.eq_nil_or_concat (first :: earlier)).resolve_left (List.cons_ne_nil _ _)
  rw [List.concat_eq_append] at hlast
  refine ⟨unlines most ++ last, unlines later, ?_⟩
  calc
    unlines (first :: (earlier ++ line :: later))
      = unlines (most ++ [last] ++ ([line] ++ later)) := by rw [← hlast]; rfl
    _ = unlines most ++ last ++ ("\n" ++ line) ++ ("\n" ++ unlines later) := by
        simp only [unlines_append, unlines_singleton, String.append_assoc]

namespace Quoting

variable {q : Quoting} {text first item cue back : String} {lines : List String}

/-- Literals on an indented line are carried together with the line. -/
theorem carriesAll_of_mem {separator : String} {values : List String}
    (hlines : HasLines text (first :: lines)) (hmem : "  " ++ item ∈ lines)
    (hitem : item = cue ++ separator.intercalate (values.map q.write) ++ back)
    (hseparator : 2 ≤ values.length → OpensPlain separator)
    (hback : OpensPlain (back ++ "\n")) :
    q.CarriesAll text (unlines (first :: lines)) ("\n  " ++ cue) separator values := by
  obtain ⟨before, after, htext, -⟩ := hlines
  obtain ⟨front, more, hpart⟩ := exists_unlines_eq hmem first
  have hindent : "\n" ++ ("  " ++ item) = "\n  " ++ item := String.append_assoc.symm
  have hsplit : unlines (first :: lines) = front ++ ("\n  " ++ cue) ++
      separator.intercalate (values.map q.write) ++ (back ++ "\n" ++ more) := by
    rw [hpart, hindent, hitem]
    simp only [String.append_assoc]
  exact q.carriesAll_of_eq htext hsplit hseparator (hback.append more)

theorem carries_of_mem {s : String} (hlines : HasLines text (first :: lines))
    (hmem : "  " ++ item ∈ lines) (hitem : item = cue ++ q.write s ++ back)
    (hback : OpensPlain (back ++ "\n")) :
    q.Carries text (unlines (first :: lines)) ("\n  " ++ cue) s := by
  refine carriesAll_of_mem hlines hmem ?_ (fun h ↦ absurd h (by simp)) hback
  rw [hitem, List.map_singleton, String.intercalate_singleton]

end Quoting

end Scaffold

import Scaffold.Artifact.Code

/-!
# The lines of written code

Code is written by appending lines, so that what a piece of it writes is a list of lines, which
depends on the margin alone.  The lines of a block are those of its body, one level deeper, between
the two around it.
-/

namespace Scaffold

def unlines (lines : List String) : String := String.join (lines.map (· ++ "\n"))

theorem unlines_append (lines more : List String) :
    unlines (lines ++ more) = unlines lines ++ unlines more := by
  simp [unlines]

theorem unlines_singleton (line : String) : unlines [line] = line ++ "\n" := by simp [unlines]

theorem notMem_unlines {c : Char} (hc : c ≠ '\n') {lines : List String}
    (h : ∀ line ∈ lines, c ∉ line.toList) : c ∉ (unlines lines).toList := by
  induction lines with
  | nil => simp [unlines]
  | cons line lines ih =>
      obtain ⟨hline, hlines⟩ := List.forall_mem_cons.mp h
      rw [← List.singleton_append, unlines_append, unlines_singleton]
      simp [hline, hc, ih hlines]

def HasLines (text : String) (lines : List String) : Prop :=
  ∃ before after, text = before ++ unlines lines ++ after ∧
    (before = "" ∨ before.toList.getLast? = some '\n')

theorem hasLines_unlines {block lines : List String} (h : block <:+: lines) :
    HasLines (unlines lines) block := by
  obtain ⟨front, back, rfl⟩ := h
  refine ⟨unlines front, unlines back, by simp only [unlines_append], ?_⟩
  rcases List.eq_nil_or_concat front with rfl | ⟨most, last, rfl⟩
  · exact .inl rfl
  · right
    simp [unlines_append, unlines_singleton]

theorem hasLines_of_mem {line : String} {lines : List String} (h : line ∈ lines) :
    HasLines (unlines lines) [line] := by
  obtain ⟨front, back, rfl⟩ := List.append_of_mem h
  exact hasLines_unlines ⟨front, back, by simp⟩

namespace Code

/-- Whether a piece of code with the standard indent writes the lines that follow from the margin,
and comes back to the depth it starts at. -/
def Writes (body : Code → Code) (lines : String → List String) : Prop :=
  ∀ c : Code, c.indent = .standard → (body c).indent = .standard ∧ (body c).depth = c.depth ∧
    (body c).text = c.text ++ unlines (lines c.margin)

theorem margin_deeper {c : Code} (h : c.indent = .standard) :
    c.deeper.margin = c.margin ++ "  " := by
  have hblank : c.indent.blank = "  " := by rw [h]; rfl
  simp only [margin, deeper, hblank, List.replicate_succ', String.join_append]
  rfl

theorem writes_nothing : Writes (fun c ↦ c) fun _ ↦ [] := fun c h ↦
  ⟨h, rfl, by simp [unlines]⟩

theorem writes_line (s : String) : Writes (·.line s) fun margin ↦ [margin ++ s] := fun c h ↦
  ⟨h, rfl, by simp only [line, unlines_singleton, String.append_assoc]⟩

theorem writes_blank : Writes blank fun _ ↦ [""] := fun c h ↦
  ⟨h, rfl, by simp [blank, unlines_singleton]⟩

theorem writes_comment (mark s : String) :
    Writes (·.comment mark s) fun margin ↦ [margin ++ (mark ++ " " ++ s)] :=
  writes_line (mark ++ " " ++ s)

variable {first second : Code → Code} {lines more : String → List String}

theorem Writes.trans (h : Writes first lines) (h' : Writes second more) :
    Writes (fun c ↦ second (first c)) fun margin ↦ lines margin ++ more margin := by
  intro c hc
  obtain ⟨hindent, hdepth, htext⟩ := h c hc
  obtain ⟨hindent', hdepth', htext'⟩ := h' (first c) hindent
  have hmargin : (first c).margin = c.margin := by rw [margin, margin, hdepth, hindent, hc]
  refine ⟨hindent', hdepth'.trans hdepth, ?_⟩
  rw [htext', htext, hmargin, unlines_append, String.append_assoc]

/-- What is written inside a block is written one level deeper. -/
theorem writes_block (header close : String) (h : Writes first lines) :
    Writes (·.block header close first)
      fun margin ↦ [margin ++ header] ++ lines (margin ++ "  ") ++ [margin ++ close] := by
  intro c hc
  let inner := (c.line header).deeper
  obtain ⟨hindent, hdepth, htext⟩ := h inner hc
  have hback : (first inner).shallower.depth = c.depth := by
    rw [shallower, hdepth]
    exact Nat.add_sub_cancel ..
  have hmargin : (first inner).shallower.margin = c.margin := by
    rw [margin, margin, hback, hc, shallower, hindent]
  have hinner : inner.margin = c.margin ++ "  " := margin_deeper hc
  have hheader : inner.text = c.text ++ unlines [c.margin ++ header] :=
    (writes_line header c hc).2.2
  refine ⟨hindent, hback, ?_⟩
  obtain ⟨-, -, hclose⟩ := writes_line close (first inner).shallower hindent
  rw [hmargin] at hclose
  refine hclose.trans ?_
  rw [shallower, htext, hinner, hheader]
  simp only [unlines_append, String.append_assoc]

theorem writes_each {α : Type} {items : List α} {body : Code → α → Code}
    {linesOf : α → String → List String} (h : ∀ a ∈ items, Writes (body · a) (linesOf a)) :
    Writes (·.each items body) fun margin ↦ items.flatMap (linesOf · margin) := by
  induction items with
  | nil => exact writes_nothing
  | cons a items ih =>
      obtain ⟨ha, hitems⟩ := List.forall_mem_cons.mp h
      exact ha.trans (ih hitems)

theorem writes_eachLine (items : List String) :
    Writes (·.each items line) fun margin ↦ items.map (margin ++ ·) := by
  have heach := writes_each fun s (_ : s ∈ items) ↦ writes_line s
  simpa only [← List.map_eq_flatMap] using heach

theorem writes_when (condition : Bool) (h : Writes first lines) :
    Writes (·.when condition first) fun margin ↦ if condition then lines margin else [] := by
  cases condition with
  | true => exact h
  | false => exact writes_nothing

theorem Writes.text_eq (h : Writes first lines) : (first {}).text = unlines (lines "") :=
  (h {} rfl).2.2.trans String.empty_append

end Code

end Scaffold

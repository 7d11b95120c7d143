/-!
# Indented text

Generated code is written line by line from the top, at a current depth.
-/

namespace Scaffold

/-- What one level of depth puts in front of a line. -/
inductive Indent where
  | spaces (width : Nat)
  | tab
deriving DecidableEq, Repr

namespace Indent

def standard : Indent := .spaces 2

/-- The blank of one level.  Widths other than two, four and eight count as four. -/
def blank : Indent → String
  | .spaces 2 => "  "
  | .spaces 8 => "        "
  | .spaces _ => "    "
  | .tab => "\t"

end Indent

structure Code where
  indent : Indent := .standard
  depth : Nat := 0
  text : String := ""
deriving DecidableEq, Repr

namespace Code

def margin (c : Code) : String := String.join (List.replicate c.depth c.indent.blank)

def line (c : Code) (s : String) : Code := { c with text := c.text ++ c.margin ++ s ++ "\n" }

def blank (c : Code) : Code := { c with text := c.text ++ "\n" }

def deeper (c : Code) : Code := { c with depth := c.depth + 1 }

def shallower (c : Code) : Code := { c with depth := c.depth - 1 }

def comment (c : Code) (mark s : String) : Code := c.line (mark ++ " " ++ s)

/-- Lines one level deeper than the two around them. -/
def block (c : Code) (header close : String) (body : Code → Code) : Code :=
  (body (c.line header).deeper).shallower.line close

def when (c : Code) (condition : Bool) (body : Code → Code) : Code :=
  if condition then body c else c

def each {α : Type} (c : Code) (items : List α) (body : Code → α → Code) : Code :=
  items.foldl body c

end Code

end Scaffold

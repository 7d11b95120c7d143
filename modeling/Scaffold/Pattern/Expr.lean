import Scaffold.Pattern.Property

/-!
# Regular expressions

The tree of a pattern, as it is written: flags, groups and classes are kept, and nothing is
simplified but sequences of one part.
-/

namespace Scaffold.Pattern

inductive Flag where
  | ignoreCase
  | multiLine
  | dotAll
  | swapGreed
  | unicode
  | lineEnds
  | spaced
deriving DecidableEq, Repr

def Flag.ofChar? : Char → Option Flag
  | 'i' => some .ignoreCase
  | 'm' => some .multiLine
  | 's' => some .dotAll
  | 'U' => some .swapGreed
  | 'u' => some .unicode
  | 'R' => some .lineEnds
  | 'x' => some .spaced
  | _ => none

/-- Flags that are switched on or off, in the order of writing. -/
abbrev Switching := List (Flag × Bool)

def Switching.setting? (s : Switching) (flag : Flag) : Option Bool :=
  (s.reverse.find? (·.1 == flag)).map Prod.snd

/-- A character that stands for itself.  Two hexadecimal digits may also mean a byte. -/
structure Symbol where
  char : Char
  isByte : Bool := false
deriving DecidableEq, Repr

/-- Classes with a letter of their own. -/
inductive Shorthand where
  | digit
  | space
  | word
deriving DecidableEq, Repr

inductive ClassExpr where
  | empty
  | symbol (s : Symbol)
  | range (first last : Symbol)
  | ascii (negated : Bool)
  | property (p : Property)
  | shorthand (kind : Shorthand) (negated : Bool)
  | bracketed (negated : Bool) (body : ClassExpr)
  | union (items : List ClassExpr)
  | combined (left right : ClassExpr)
deriving Repr

inductive Expr where
  | empty
  | flags (s : Switching)
  | symbol (s : Symbol)
  | dot
  | look
  | property (p : Property)
  | shorthand (kind : Shorthand) (negated : Bool)
  | bracketed (negated : Bool) (body : ClassExpr)
  | repeated (least : Nat) (most : Option Nat) (body : Expr)
  | capture (body : Expr)
  | group (s : Switching) (body : Expr)
  | alternation (branches : List Expr)
  | sequence (parts : List Expr)
deriving Repr

namespace ClassExpr

def ofItems : List ClassExpr → ClassExpr
  | [] => .empty
  | [item] => item
  | items => .union items

mutual

/-- How deep brackets and their parts are nested. -/
def depth : ClassExpr → Nat
  | .bracketed _ body => body.depth + 1
  | .union items => depthOfList items + 1
  | .combined left right => Nat.max left.depth right.depth + 1
  | _ => 0

def depthOfList : List ClassExpr → Nat
  | [] => 0
  | item :: items => Nat.max item.depth (depthOfList items)

end

end ClassExpr

namespace Expr

def ofParts : List Expr → Expr
  | [] => .empty
  | [part] => part
  | parts => .sequence parts

/-- The choice between some branches; a single branch is itself. -/
def ofBranches : List Expr → Expr
  | [branch] => branch
  | branches => .alternation branches

mutual

/-- How deep groups, repetitions, brackets and their parts are nested. -/
def depth : Expr → Nat
  | .bracketed _ body => body.depth + 1
  | .repeated _ _ body => body.depth + 1
  | .capture body => body.depth + 1
  | .group _ body => body.depth + 1
  | .alternation branches => depthOfList branches + 1
  | .sequence parts => depthOfList parts + 1
  | _ => 0

def depthOfList : List Expr → Nat
  | [] => 0
  | e :: es => Nat.max e.depth (depthOfList es)

end

end Expr

end Scaffold.Pattern

/-!
# Plurals

The plural of a name in snake case is the plural of its last word.
-/

namespace Scaffold.Naming

/-- Words whose plural is the singular. -/
def uncountable : List String :=
  ["data", "equipment", "feedback", "fish", "information", "metadata", "news", "series", "sheep",
    "species", "staff"]

/-- Words whose plural has to be learned. -/
def irregular : List (String × String) :=
  [("person", "people"), ("child", "children"), ("man", "men"), ("woman", "women"),
    ("mouse", "mice"), ("goose", "geese"), ("tooth", "teeth"), ("foot", "feet"), ("ox", "oxen")]

def isVowel (c : Char) : Bool := c = 'a' || c = 'e' || c = 'i' || c = 'o' || c = 'u'

/-- Whether the word ends in a sound after which the plural has a syllable of its own. -/
def endsHissing (reversed : List Char) : Bool :=
  match reversed with
  | 's' :: _ | 'x' :: _ | 'z' :: _ | 'h' :: 'c' :: _ | 'h' :: 's' :: _ => true
  | _ => false

def regularPlural (word : List Char) : List Char :=
  let reversed := (word.map Char.toLower).reverse
  if endsHissing reversed then word ++ ['e', 's']
  else match reversed with
    | 'y' :: c :: _ =>
        if isVowel c then word ++ ['s'] else word.dropLast ++ ['i', 'e', 's']
    | 'e' :: 'f' :: _ => word.dropLast.dropLast ++ ['v', 'e', 's']
    | _ => word ++ ['s']

/-- The plural of a word.  How it is found does not depend on the case of ASCII letters. -/
def pluralWord (word : List Char) : List Char :=
  let lower := String.ofList (word.map Char.toLower)
  if word.isEmpty || uncountable.contains lower then word
  else match irregular.lookup lower with
    | some plural => plural.toList
    | none => regularPlural word

/-- The parts of a text up to the last underscore, with it, and after it. -/
def splitLastWord (cs : List Char) : List Char × List Char :=
  let last := (cs.reverse.takeWhile (· ≠ '_')).reverse
  (cs.take (cs.length - last.length), last)

def pluralize (name : String) : String :=
  let (head, last) := splitLastWord name.toList
  String.ofList (head ++ pluralWord last)

end Scaffold.Naming

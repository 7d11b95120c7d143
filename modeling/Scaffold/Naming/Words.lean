import Scaffold.Text.Casing
import Scaffold.Text.Grapheme

/-!
# The words of a name

A name is a sequence of words, whichever way it is written.  Underscores, hyphens and blanks divide
words and are dropped; a word also ends between a lower and an upper letter, between a letter and a
digit, and before the last capital of a run that a small letter follows.  Letters are grapheme
clusters, so that a letter and its accents stay together.
-/

namespace Scaffold.Naming

abbrev Cluster := List Char

def isSeparator (c : Cluster) : Bool := c == ['_'] || c == ['-'] || c == [' ']

def isUpper (c : Cluster) : Bool := Text.toUpper c != Text.toLower c && c == Text.toUpper c

/-- A cluster with two cases, in lower case. -/
def isLower (c : Cluster) : Bool := Text.toUpper c != Text.toLower c && c == Text.toLower c

def isDigit (c : Cluster) : Bool := c.all fun ch ↦ '0' ≤ ch && ch ≤ '9'

/-- Whether a word ends between two neighbours. -/
def isBoundary (c d : Cluster) : Bool :=
  (isLower c && isUpper d) || (isUpper c && isDigit d) || (isDigit c && isUpper d) ||
    (isDigit c && isLower d) || (isLower c && isDigit d)

def isAcronymEnd (c d e : Cluster) : Bool := isUpper c && isUpper d && isLower e

def startsWord (before : Option Cluster) (c : Cluster) (after : Option Cluster) : Bool :=
  match before with
  | none => false
  | some b => isBoundary b c || after.any (isAcronymEnd b c)

/-- The words of the clusters; `before` is the cluster in front of them and `word` the word that
it belongs to, which may be empty. -/
def wordsFrom (before : Option Cluster) (word : List Char) : List Cluster → List (List Char)
  | [] => [word]
  | c :: cs =>
      if isSeparator c then word :: wordsFrom (some c) [] cs
      else if startsWord before c cs.head? then word :: wordsFrom (some c) c cs
      else wordsFrom (some c) (word ++ c) cs

def words (name : List Char) : List (List Char) :=
  (wordsFrom none [] (Text.clusters name)).filter (!·.isEmpty)

end Scaffold.Naming

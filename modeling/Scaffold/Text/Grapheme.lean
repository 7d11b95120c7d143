import Scaffold.Text.GraphemeBreak

/-!
# Grapheme clusters

A text divides into the units that a reader takes for one character.  `joins` says whether two
neighbouring characters stay together, given what the cluster so far ends in.
-/

namespace Scaffold.Text

/-- What the end of a cluster remembers besides the class of its last character. -/
structure ClusterState where
  last : GraphemeBreak
  /-- A pictograph followed only by extending characters. -/
  pictograph : Bool
  /-- An odd number of regional indicators at the end. -/
  oddRegional : Bool

def ClusterState.step (state : ClusterState) (next : GraphemeBreak) : ClusterState where
  last := next
  pictograph := next = .pictograph || (state.pictograph && (next = .extend || next = .joiner))
  oddRegional := next = .regional && !state.oddRegional

def ClusterState.start (first : GraphemeBreak) : ClusterState where
  last := first
  pictograph := first = .pictograph
  oddRegional := first = .regional

def ClusterState.joins (state : ClusterState) (next : GraphemeBreak) : Bool :=
  match state.last, next with
  | .carriageReturn, .lineFeed => true
  | .carriageReturn, _ | .lineFeed, _ | .control, _ => false
  | _, .carriageReturn | _, .lineFeed | _, .control => false
  | .leading, .leading | .leading, .vowel | .leading, .leadingVowel
  | .leading, .leadingVowelTrailing => true
  | .leadingVowel, .vowel | .leadingVowel, .trailing | .vowel, .vowel | .vowel, .trailing => true
  | .leadingVowelTrailing, .trailing | .trailing, .trailing => true
  | _, .extend | _, .joiner | _, .spacing => true
  | .prepended, _ => true
  | .joiner, .pictograph => state.pictograph
  | .regional, .regional => state.oddRegional
  | _, _ => false

/-- The rest of the clusters; the cluster being read is given in reverse. -/
def clustersFrom : ClusterState → List Char → List Char → List (List Char)
  | _, current, [] => [current.reverse]
  | state, current, c :: cs =>
      let next := graphemeBreak c
      if state.joins next then clustersFrom (state.step next) (c :: current) cs
      else current.reverse :: clustersFrom (.start next) [c] cs

def clusters : List Char → List (List Char)
  | [] => []
  | c :: cs => clustersFrom (.start (graphemeBreak c)) [c] cs

end Scaffold.Text

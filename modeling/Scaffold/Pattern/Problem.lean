/-!
# What may be wrong with a pattern

Whether a pattern can be used depends on the engine that it is meant for.  Validation takes over
what a checker says about it.
-/

namespace Scaffold.Pattern

inductive Problem where
  | classEscape
  | classRangeOrder
  | classRangeBoundary
  | classUnclosed
  | decimalInvalid
  | hexEmpty
  | hexNotScalar
  | hexDigit
  | escapeAtEnd
  | escapeUnknown
  | flagDanglingNegation
  | flagDuplicate
  | flagRepeatedNegation
  | flagAtEnd
  | flagUnknown
  | groupNameDuplicate
  | groupNameEmpty
  | groupNameInvalid
  | groupNameUnclosed
  | groupUnclosed
  | groupUnopened
  | nesting (limit : Nat)
  | countOrder
  | countMissing
  | countUnclosed
  | repetitionMissing
  | wordBoundaryUnclosed
  | wordBoundaryUnknown
  | wordBoundaryAtEnd
  | unicodeClass
  | backreference
  | lookAround
  | unicodeNotAllowed
  | invalidUtf8
  | propertyNotFound
  | propertyValueNotFound
  | tooBig (limit : Nat)
deriving DecidableEq, Repr

/-- The last line of what is said about a problem. -/
def Problem.summary : Problem → String
  | .classEscape => "error: invalid escape sequence found in character class"
  | .classRangeOrder => "error: invalid character class range, the start must be <= the end"
  | .classRangeBoundary => "error: invalid range boundary, must be a literal"
  | .classUnclosed => "error: unclosed character class"
  | .decimalInvalid => "error: decimal literal invalid"
  | .hexEmpty => "error: hexadecimal literal empty"
  | .hexNotScalar => "error: hexadecimal literal is not a Unicode scalar value"
  | .hexDigit => "error: invalid hexadecimal digit"
  | .escapeAtEnd => "error: incomplete escape sequence, reached end of pattern prematurely"
  | .escapeUnknown => "error: unrecognized escape sequence"
  | .flagDanglingNegation => "error: dangling flag negation operator"
  | .flagDuplicate => "error: duplicate flag"
  | .flagRepeatedNegation => "error: flag negation operator repeated"
  | .flagAtEnd => "error: expected flag but got end of regex"
  | .flagUnknown => "error: unrecognized flag"
  | .groupNameDuplicate => "error: duplicate capture group name"
  | .groupNameEmpty => "error: empty capture group name"
  | .groupNameInvalid => "error: invalid capture group character"
  | .groupNameUnclosed => "error: unclosed capture group name"
  | .groupUnclosed => "error: unclosed group"
  | .groupUnopened => "error: unopened group"
  | .nesting limit =>
      s!"error: exceed the maximum number of nested parentheses/brackets ({limit})"
  | .countOrder => "error: invalid repetition count range, the start must be <= the end"
  | .countMissing => "error: repetition quantifier expects a valid decimal"
  | .countUnclosed => "error: unclosed counted repetition"
  | .repetitionMissing => "error: repetition operator missing expression"
  | .wordBoundaryUnclosed =>
      "error: special word boundary assertion is either unclosed or contains an invalid character"
  | .wordBoundaryUnknown =>
      "error: unrecognized special word boundary assertion, valid choices are: start, end, " ++
        "start-half or end-half"
  | .wordBoundaryAtEnd =>
      "error: found either the beginning of a special word boundary or a bounded repetition on " ++
        "a \\b with an opening brace, but no closing brace"
  | .unicodeClass => "error: invalid Unicode character class"
  | .backreference => "error: backreferences are not supported"
  | .lookAround =>
      "error: look-around, including look-ahead and look-behind, is not supported"
  | .unicodeNotAllowed => "error: Unicode not allowed here"
  | .invalidUtf8 => "error: pattern can match invalid UTF-8"
  | .propertyNotFound => "error: Unicode property not found"
  | .propertyValueNotFound => "error: Unicode property value not found"
  | .tooBig limit => s!"Compiled regex exceeds size limit of {limit} bytes."

/-- A checker of patterns, which says why a pattern cannot be used. -/
class Checker where
  problem? : String → Option Problem

end Scaffold.Pattern

import Scaffold.Naming.Words

/-!
# Ways to write a name

The same words joined in four ways, and the two forms that declared names have to take.
-/

namespace Scaffold.Naming

/-- A word with its first character in upper case and the others in lower case. -/
def capitalize : List Char → List Char
  | [] => []
  | c :: cs => Text.upperForm c ++ Text.toLower cs

def joinLower (separator : Char) (name : List Char) : List Char :=
  List.intercalate [separator] ((words name).map Text.toLower)

/-- The name in the form `blog_post`. -/
def snake (name : String) : String := String.ofList (joinLower '_' name.toList)

/-- The name in the form `blog-post`. -/
def kebab (name : String) : String := String.ofList (joinLower '-' name.toList)

/-- The name in the form `BlogPost`. -/
def pascal (name : String) : String := String.ofList ((words name.toList).flatMap capitalize)

/-- The name in the form `blogPost`. -/
def camel (name : String) : String :=
  match words name.toList with
  | [] => ""
  | word :: rest => String.ofList (Text.toLower word ++ rest.flatMap capitalize)

def isCapital (c : Char) : Bool := 'A' ≤ c && c ≤ 'Z'

def isSmall (c : Char) : Bool := 'a' ≤ c && c ≤ 'z'

def isAlphanumeric (c : Char) : Bool := isCapital c || isSmall c || ('0' ≤ c && c ≤ '9')

/-- A capital followed by letters and digits, all of them ASCII. -/
def isPascal (name : String) : Bool :=
  match name.toList with
  | [] => false
  | c :: cs => isCapital c && cs.all isAlphanumeric

/-- A small letter followed by letters and digits, all of them ASCII. -/
def isCamel (name : String) : Bool :=
  match name.toList with
  | [] => false
  | c :: cs => isSmall c && cs.all isAlphanumeric

end Scaffold.Naming

import ContractDraft.Text.Alphabetic
import ContractDraft.Text.LetterCase
import ContractDraft.Text.Lowercase
import ContractDraft.Text.Numeric

/-!
# Names of fragments

A fragment is named after the key that leads to it: words are joined in lower camel case, items of
arrays are called by the singular, and the result is made an identifier.
-/

namespace ContractDraft.Name

/-- Letters and numbers of every script. -/
def isAlphanumeric (c : Char) : Bool :=
  Text.isAlphabetic c || Text.isNumeric c

/-- Splits at every character that is no letter and no number; the parts may be empty. -/
def splitParts : List Char → List (List Char)
  | [] => [[]]
  | c :: s =>
    if isAlphanumeric c then
      match splitParts s with
      | [] => [[c]]
      | part :: parts => (c :: part) :: parts
    else [] :: splitParts s

/-- The words of a key: its longest runs of letters and numbers. -/
def words (s : List Char) : List (List Char) :=
  (splitParts s).filter fun part => !part.isEmpty

/-- The characters of a word after its first: a word without any small letter is not kept in
capitals. -/
def wordRest (word : List Char) : List Char :=
  if word.all fun c => !Text.isLowercase c then word.tail.flatMap Text.toLower else word.tail

/-- A word that opens a name. -/
def openingWord : List Char → List Char
  | [] => []
  | c :: s => Text.toLower c ++ wordRest (c :: s)

/-- A word inside a name. -/
def innerWord : List Char → List Char
  | [] => []
  | c :: s => Text.toUpper c ++ wordRest (c :: s)

/-- The words of a key as one name, every word but the first with a capital letter. -/
def lowerCamelCase (key : String) : String :=
  match words key.toList with
  | [] => ""
  | word :: rest => String.ofList (openingWord word ++ rest.flatMap innerWord)

/-- What stands before `suffix`, if that is not empty. -/
def stem? (suffix name : List Char) : Option (List Char) :=
  if suffix.isSuffixOf name ∧ suffix.length < name.length then
    some (name.take (name.length - suffix.length))
  else none

/-- The endings that lose two letters in the singular. -/
def longPlurals : List (List Char) :=
  ["sses".toList, "xes".toList, "ches".toList, "shes".toList]

/-- The endings in `s` that are no plurals. -/
def singularEndings : List (List Char) :=
  ["ss".toList, "us".toList, "is".toList]

/-- The singular of a name that looks like a plural. -/
def singular? (name : List Char) : Option (List Char) :=
  match stem? "ies".toList name with
  | some stem => some (stem ++ ['y'])
  | none =>
    if longPlurals.any fun ending => (stem? ending name).isSome then
      some (name.take (name.length - 2))
    else if singularEndings.any fun ending => ending.isSuffixOf name then none
    else stem? ['s'] name

/-- The name of an item of the array called `name`. -/
def ofItem (name : String) : String :=
  match singular? name.toList with
  | some singular => String.ofList singular
  | none => name ++ "Item"

/-- The words that Java keeps for itself. -/
def reservedWords : List String := [
  "abstract", "assert", "boolean", "break", "byte", "case", "catch", "char", "class", "const",
  "continue", "default", "do", "double", "else", "enum", "extends", "false", "final", "finally",
  "float", "for", "goto", "if", "implements", "import", "instanceof", "int", "interface", "long",
  "native", "new", "null", "package", "private", "protected", "public", "return", "short",
  "static", "strictfp", "super", "switch", "synchronized", "this", "throw", "throws",
  "transient", "true", "try", "void", "volatile", "while", "var", "record", "yield"]

/-- Makes a name usable as an identifier. -/
def identifier (name : String) : String :=
  match name.toList with
  | [] => "fragment"
  | c :: _ =>
    if c.isDigit then "f" ++ name
    else if name ∈ reservedWords then name ++ "Part"
    else name

end ContractDraft.Name

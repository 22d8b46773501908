import ContractDraft.Fragment.Path
import ContractDraft.Json.Value
import ContractDraft.Shape.Basic

/-!
# Statements

The structure of a contract, before any builder language is chosen: a flat list in which scopes are
opened and closed, as in the text that will be written.
-/

namespace ContractDraft

/-- How many items a repeating array must have, and how many the contract shows. -/
structure ArrayBounds where
  minLen : UInt64 := 1
  examples : UInt64 := 1
  deriving DecidableEq, Repr

/-- The bounds with as many examples as the least length asks for, and at least one. -/
def ArrayBounds.normalized (bounds : ArrayBounds) : ArrayBounds :=
  { bounds with examples := max (max bounds.examples bounds.minLen) 1 }

/-- An example value of a matcher. -/
inductive Literal where
  | text (s : String)
  | integer (n : Int64)
  | decimal (x : Binary64)
  | boolean (b : Bool)
  deriving DecidableEq

/-- The example for a scalar. Empty strings, `null` and numbers that are not finite have none. -/
def Literal.ofValue? : Value → Option Literal
  | .string s => if s.isEmpty then none else some (.text s)
  | .integer n => some (.integer n)
  | .decimal x => if x.isFinite then some (.decimal x) else none
  | .boolean b => some (.boolean b)
  | _ => none

/-- What is demanded of a scalar, with an example of it. -/
structure Matcher where
  shape : Shape
  sample : Option Literal := none
  deriving DecidableEq

/-- The items of a repeating array that take several statements to describe. -/
inductive Nesting where
  | object
  | array
  deriving DecidableEq, Repr

/-- A statement of a contract. Where a key is optional it is missing inside arrays. -/
inductive Statement where
  | rootOpen (name : String)
  | rootClose
  /-- The document is an array; a description of its items follows. -/
  | rootArrayOpen (name : String) (nesting : Nesting) (bounds : ArrayBounds)
  | rootArrayClose (nesting : Nesting)
  /-- The document is an array of scalars. -/
  | rootArrayMatcher (name : String) (matcher : Matcher) (bounds : ArrayBounds)
  | rootEmptyArray (name : String)
  | fragmentOpen (name : String)
  | fragmentClose
  | objectOpen (key : Option String)
  | objectClose
  | referenceOpen (key : Option String)
  | reference (name : String)
  | referenceClose
  /-- A repeating array; a description of its items follows. -/
  | repeatOpen (key : String) (nesting : Nesting) (bounds : ArrayBounds)
  | repeatClose (nesting : Nesting)
  /-- A repeating array whose items a fragment describes. -/
  | repeatFragment (key : String) (name : String) (bounds : ArrayBounds)
  /-- A repeating array of scalars. -/
  | repeatMatcher (key : String) (matcher : Matcher) (bounds : ArrayBounds)
  /-- An array inside an array. -/
  | arrayOpen
  | arrayClose
  /-- An array without an item to learn from. -/
  | emptyArray (key : Option String)
  | scalar (key : Option String) (matcher : Matcher)
  deriving DecidableEq

/-- The statements of a fragment, or of the document if there is no path. -/
structure Block where
  name : String
  path : Option Path
  statements : List Statement
  deriving DecidableEq

end ContractDraft

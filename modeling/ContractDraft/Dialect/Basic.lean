import ContractDraft.Contract.Statement

/-!
# Dialects

The vocabulary of a builder language: a template for every statement, and the call for every shape.
Templates know the placeholders `name` (of the document or a fragment), `key` (a quoted key), `var`
(the builder variable of the scope), `child` (the variable of the scope being opened), `method` and
`args` (of a matcher call), `min` and `examples` (of a repeating array). A template of several lines
puts all of them at one depth; an empty template writes nothing.
-/

namespace ContractDraft

/-- The call that writes matchers of one shape. -/
structure MatcherCall where
  method : String
  /-- An argument between key and example, such as a regular expression. -/
  pattern : Option String := none
  /-- Whether the call takes an example. -/
  withExample : Bool := true
  deriving DecidableEq, Repr

/-- The calls for all shapes. -/
structure MatcherTable where
  enumString : MatcherCall
  freeString : MatcherCall
  emailString : MatcherCall
  uuid : MatcherCall
  date : MatcherCall
  dateTime : MatcherCall
  integer : MatcherCall
  decimal : MatcherCall
  number : MatcherCall
  boolean : MatcherCall
  null : MatcherCall
  deriving DecidableEq, Repr

/-- The call for a shape. -/
def MatcherTable.call (table : MatcherTable) : Shape → MatcherCall
  | .enumString => table.enumString
  | .freeString => table.freeString
  | .emailString => table.emailString
  | .uuid => table.uuid
  | .date => table.date
  | .dateTime => table.dateTime
  | .integer => table.integer
  | .decimal => table.decimal
  | .number => table.number
  | .boolean => table.boolean
  | .null => table.null

/-- The vocabulary of a builder language. -/
structure Dialect where
  name : String
  /-- One level of indentation. -/
  indent : String
  /-- Levels between the head of a fragment and its fields. -/
  fragmentIndent : UInt64
  /-- What all builder variables begin with; every one but the first also has a number. -/
  varPrefix : String
  /-- What stands behind whole numbers. -/
  integerSuffix : String
  rootOpen : String
  rootClose : String
  rootArrayObjectOpen : String
  rootArrayObjectClose : String
  rootArrayNestedOpen : String
  rootArrayNestedClose : String
  rootArrayMatcher : String
  rootEmptyArray : String
  fragmentOpen : String
  fragmentClose : String
  call : String
  objectOpen : String
  objectOpenElement : String
  objectClose : String
  referenceOpen : String
  referenceOpenElement : String
  reference : String
  referenceClose : String
  repeatObjectOpen : String
  repeatObjectClose : String
  repeatNestedOpen : String
  repeatNestedClose : String
  repeatFragment : String
  repeatMatcher : String
  repeatEmpty : String
  arrayOpen : String
  arrayClose : String
  emptyArray : String
  matchers : MatcherTable
  deriving DecidableEq, Repr

end ContractDraft

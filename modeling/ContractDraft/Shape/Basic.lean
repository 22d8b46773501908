/-!
# Shapes

The categories of matchers: what a contract says about a scalar instead of its value.
-/

namespace ContractDraft

/-- What a matcher demands of a scalar. -/
inductive Shape where
  /-- A token of capital letters and underscores, most likely from a closed list. -/
  | enumString
  | freeString
  | emailString
  | uuid
  | date
  | dateTime
  | integer
  | decimal
  /-- Any number: for numbers that no rule accepts. -/
  | number
  | boolean
  | null
  deriving DecidableEq, Repr

namespace Shape

/-- The name of a shape in signatures. -/
def name : Shape → String
  | .enumString => "enum-string"
  | .freeString => "string"
  | .emailString => "email"
  | .uuid => "uuid"
  | .date => "date"
  | .dateTime => "date-time"
  | .integer => "integer"
  | .decimal => "decimal"
  | .number => "number"
  | .boolean => "boolean"
  | .null => "null"

/-- The shapes of strings. -/
def isString : Shape → Bool
  | .enumString | .freeString | .emailString | .uuid | .date | .dateTime => true
  | _ => false

end Shape
end ContractDraft

import ContractDraft.Number.Binary64

/-!
# Documents as values

The value of a JSON document: whole numbers of 64 bits are kept apart from all other numbers, and an
object is the list of its fields in the order in which their keys first occur.
-/

namespace ContractDraft

/-- A JSON value. -/
inductive Value where
  | null
  | boolean (b : Bool)
  | integer (n : Int64)
  | decimal (x : Binary64)
  | string (s : String)
  | array (items : List Value)
  | object (fields : List (String × Value))
  deriving Inhabited

/-- The fields of an object, in order. -/
abbrev Fields := List (String × Value)

/-- The kinds of values. -/
inductive Kind where
  | null | boolean | integer | decimal | string | array | object
  deriving DecidableEq, Repr

/-- The name of a kind in messages. -/
def Kind.name : Kind → String
  | .null => "null"
  | .boolean => "boolean"
  | .integer => "integer"
  | .decimal => "decimal"
  | .string => "string"
  | .array => "array"
  | .object => "object"

namespace Value

/-- The kind of a value. -/
def kind : Value → Kind
  | .null => .null
  | .boolean _ => .boolean
  | .integer _ => .integer
  | .decimal _ => .decimal
  | .string _ => .string
  | .array _ => .array
  | .object _ => .object

/-- Everything but arrays and objects. -/
def isScalar : Value → Bool
  | .array _ | .object _ => false
  | _ => true

end Value

namespace Fields

/-- Sets `key` to `value`: an existing field keeps its place, a new one goes to the end. -/
def put (fields : Fields) (key : String) (value : Value) : Fields :=
  match fields with
  | [] => [(key, value)]
  | (k, v) :: rest => if k = key then (k, value) :: rest else (k, v) :: put rest key value

/-- The fields that a row of members describes: each key stands where it first occurs, with the
value it has last. -/
def ofMembers (members : List (String × Value)) : Fields :=
  members.foldl (fun fields member => put fields member.1 member.2) []

end Fields
end ContractDraft

import ContractDraft.Json.StringWriter
import ContractDraft.Json.Value
import ContractDraft.Number.DecimalStyle

/-!
# The compact form of a document

One line of JSON without blanks, fields in their order. Numbers that JSON cannot write become
`null`.
-/

namespace ContractDraft

/-- Decimals of the compact form are positional from `0.00001` up to `10 ^ 16`, an exponent always
carries its sign, and of two equally near decimals the even one is written. -/
def compactDecimals : DecimalStyle := ⟨-4, true, .even⟩

/-- The compact text of a number that is not a 64-bit integer. -/
def compactDecimal (x : Binary64) : String :=
  if x.isFinite then compactDecimals.format x else "null"

namespace Value

mutual

/-- The compact JSON text of a value. -/
def compact : Value → String
  | .null => "null"
  | .boolean b => if b then "true" else "false"
  | .integer n => toString n.toInt
  | .decimal x => compactDecimal x
  | .string s => writeString s
  | .array items => "[" ++ String.intercalate "," (compactItems items) ++ "]"
  | .object fields => r"{" ++ String.intercalate "," (compactFields fields) ++ r"}"

/-- The compact texts of the items of an array. -/
def compactItems : List Value → List String
  | [] => []
  | v :: rest => compact v :: compactItems rest

/-- The compact texts of the fields of an object. -/
def compactFields : List (String × Value) → List String
  | [] => []
  | (key, v) :: rest => (writeString key ++ ":" ++ compact v) :: compactFields rest

end

end Value
end ContractDraft

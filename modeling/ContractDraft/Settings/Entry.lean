import ContractDraft.Json.StringWriter

/-!
# Settings as text

What settings are written as: JSON tables of strings, flags and counts, either on one line or with
one member to a line.
-/

namespace ContractDraft

/-- A written setting. -/
inductive Entry where
  | null
  | flag (b : Bool)
  | count (n : UInt64)
  | text (s : String)
  | table (members : List (String × Entry))

namespace Entry

mutual

/-- The entry on one line, without blanks. -/
def compact : Entry → String
  | .null => "null"
  | .flag b => if b then "true" else "false"
  | .count n => toString n
  | .text s => writeString s
  | .table members => r"{" ++ String.intercalate "," (compactMembers members) ++ r"}"

/-- The members of a table, without blanks. -/
def compactMembers : List (String × Entry) → List String
  | [] => []
  | (key, entry) :: rest => (writeString key ++ ":" ++ compact entry) :: compactMembers rest

end

/-- A line break and two blanks for every level. -/
def newLine (level : Nat) : String :=
  String.ofList ('\n' :: List.replicate (2 * level) ' ')

mutual

/-- The entry with one member to a line, inside `level` tables. -/
def prettyAt (level : Nat) : Entry → String
  | .table [] => "{}"
  | .table members =>
    r"{" ++ newLine (level + 1) ++
      String.intercalate ("," ++ newLine (level + 1)) (prettyMembers (level + 1) members) ++
      newLine level ++ r"}"
  | entry => compact entry
termination_by structural entry => entry

/-- The members of a table, each with its key. -/
def prettyMembers (level : Nat) : List (String × Entry) → List String
  | [] => []
  | (key, entry) :: rest =>
    (writeString key ++ ": " ++ prettyAt level entry) :: prettyMembers level rest
termination_by structural members => members

end

/-- The entry with one member to a line. -/
def pretty (entry : Entry) : String :=
  prettyAt 0 entry

end Entry
end ContractDraft

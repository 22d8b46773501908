import ContractDraft.Settings.Entry
import ContractDraft.Settings.Token

/-!
# Records of settings

A record type is described once, by the list of its members, and both directions follow from that:
it is written as a table, and read from a table in any order or from an array in the order of the
list. Members that are left out keep the values of a given record.
-/

namespace ContractDraft

/-- A member of a record type: its name, how it is written, and how a text replaces it. -/
structure Member (σ : Type) where
  name : String
  write : σ → Entry
  read : σ → List Char → Except SettingsFault (σ × List Char)
  /-- Whether a text must give it. -/
  required : Bool := false

/-- A record type by its members. -/
abbrev RecordSchema (σ : Type) := List (Member σ)

namespace Member

variable {σ : Type}

/-- A member that holds a string. -/
def text (name : String) (get : σ → String) (set : σ → String → σ) : Member σ where
  name := name
  write r := .text (get r)
  read r s := do
    let (v, s) ← Settings.readText s
    .ok (set r v, s)

/-- A member that holds a string or nothing. -/
def optionalText (name : String) (get : σ → Option String) (set : σ → Option String → σ) :
    Member σ where
  name := name
  write r := match get r with
    | some v => .text v
    | none => .null
  read r s := do
    let (v, s) ← Settings.readOptionalText s
    .ok (set r v, s)

/-- A member that holds a flag. -/
def flag (name : String) (get : σ → Bool) (set : σ → Bool → σ) : Member σ where
  name := name
  write r := .flag (get r)
  read r s := do
    let (v, s) ← Settings.readFlag s
    .ok (set r v, s)

/-- A member that holds a count. -/
def count (name : String) (get : σ → UInt64) (set : σ → UInt64 → σ) : Member σ where
  name := name
  write r := .count (get r)
  read r s := do
    let (v, s) ← Settings.readCount s
    .ok (set r v, s)

end Member

namespace RecordSchema

variable {σ : Type}

/-- The table of a record. -/
def write (schema : RecordSchema σ) (r : σ) : Entry :=
  .table (schema.map fun member => (member.name, member.write r))

/-- Whether all members that a text must give are among the given ones. -/
def complete (schema : RecordSchema σ) (given : List String) : Bool :=
  schema.all fun member => !member.required || given.contains member.name

/-- Takes a member's value after its key: a known one replaces that of the record, an unknown one is
passed over. -/
def readMember (schema : RecordSchema σ) (key : String) (r : σ) (s : List Char) :
    Except SettingsFault (σ × List Char) :=
  match skipBlanks s with
  | ':' :: s =>
    match schema.find? fun member => member.name = key with
    | some member => member.read r s
    | none => do
      let s ← Settings.skipValue (s.length + 1) (s.length + 1) s
      .ok (r, s)
  | s => .error (Settings.faultAt s)

/-- Takes members up to the closing brace, `given` being the keys so far. Every round takes a
character, so `fuel` need only exceed the length of the text. -/
def readMembers (schema : RecordSchema σ) :
    Nat → List String → σ → List Char → Except SettingsFault (σ × List Char)
  | 0, _, _, s => .error (Settings.faultAt s)
  | fuel + 1, given, r, s =>
    match skipBlanks s with
    | '"' :: s => do
      let (key, s) ← Settings.takeString true s
      if given.contains key ∧ schema.any fun member => member.name = key then .error .mismatched
      else
        let (r, s) ← schema.readMember key r s
        match skipBlanks s with
        | ',' :: s => schema.readMembers fuel (key :: given) r s
        | '}' :: s =>
          if schema.complete (key :: given) then .ok (r, s) else .error .mismatched
        | s => .error (Settings.faultAt s)
    | s => .error (Settings.faultAt s)

/-- Takes values for members in their order up to the closing bracket; those left out at the end
keep their values. There is at least one value for the first of them. -/
def readValues : RecordSchema σ → σ → List Char → Except SettingsFault (σ × List Char)
  | [], _, s => .error (Settings.faultAt s)
  | member :: rest, r, s => do
    let (r, s) ← member.read r s
    match skipBlanks s with
    | ']' :: s => if rest.any (·.required) then .error .mismatched else .ok (r, s)
    | ',' :: s =>
      match skipBlanks s with
      | ']' :: _ => .error .malformed
      | s => if rest.isEmpty then .error .malformed else readValues rest r s
    | s => .error (Settings.faultAt s)

/-- Reads a record, starting from `initial`. -/
def read (schema : RecordSchema σ) (initial : σ) (s : List Char) :
    Except SettingsFault (σ × List Char) :=
  match skipBlanks s with
  | '{' :: s =>
    match skipBlanks s with
    | '}' :: s => if schema.complete [] then .ok (initial, s) else .error .mismatched
    | s => schema.readMembers (s.length + 1) [] initial s
  | '[' :: s =>
    match skipBlanks s with
    | ']' :: s => if schema.any (·.required) then .error .mismatched else .ok (initial, s)
    | s => readValues schema initial s
  | s => .error (Settings.mismatch s)

/-- The record that a whole text describes, starting from `initial`. -/
def load (schema : RecordSchema σ) (initial : σ) (text : String) : Except SettingsFault σ := do
  let (r, s) ← schema.read initial text.toList
  if (skipBlanks s).isEmpty then .ok r else .error .malformed

end RecordSchema

/-- A member that is a record of its own. A text that gives it starts from `initial`. -/
def Member.record {σ τ : Type} (name : String) (schema : RecordSchema τ) (initial : τ)
    (get : σ → τ) (set : σ → τ → σ) : Member σ where
  name := name
  write r := schema.write (get r)
  read r s := do
    let (v, s) ← schema.read initial s
    .ok (set r v, s)

end ContractDraft

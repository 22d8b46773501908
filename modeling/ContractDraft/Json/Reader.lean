import ContractDraft.Json.Numeral
import ContractDraft.Json.StringReader

/-!
# Reading documents

A reader for JSON texts that stops at the first character that cannot be right. Arrays and objects
share one loop over members separated by commas. How deep they may still nest is the number on which
reading a value recurs; `bound` is a number above the length of the text, on which the loops recur.
-/

namespace ContractDraft

/-- Limits and tolerances of reading. -/
structure ReadOptions where
  /-- Whether one comma may stand before a closing bracket. -/
  allowTrailingCommas : Bool := false
  /-- How deep arrays and objects may nest. -/
  maxDepth : UInt64 := 128
  deriving DecidableEq, Repr

/-- The four characters that may stand between the parts of a document. -/
def isBlank (c : Char) : Bool :=
  c = ' ' || c = '\t' || c = '\n' || c = '\r'

/-- The text after leading blanks. -/
def skipBlanks (s : List Char) : List Char :=
  s.dropWhile isBlank

/-- The characters that number literals consist of. -/
def isNumberChar (c : Char) : Bool :=
  c.isDigit || c = '+' || c = '-' || c = '.' || c = 'e' || c = 'E'

/-- Reads the longest run of number characters, which must be one number literal. -/
def readNumber (s : List Char) : Except ReadFailure (Value × List Char) :=
  let literal := s.takeWhile isNumberChar
  match Numeral.ofLiteral? literal with
  | some n => .ok (n.value, s.dropWhile isNumberChar)
  | none => .error ⟨.malformedNumber (String.ofList literal), s⟩

/-- Reads the remaining letters of a word. -/
def readWord (word : String) : List Char → List Char → Except ReadFailure (List Char)
  | [], s => .ok s
  | _ :: _, [] => .error (.mismatch (.word word) [])
  | w :: letters, c :: s =>
    if c = w then readWord word letters s else .error (.mismatch (.word word) (c :: s))

/-- Reads a word that stands for a value. -/
def readConstant (word : String) (value : Value) (s : List Char) :
    Except ReadFailure (Value × List Char) := do
  let s ← readWord word word.toList s
  .ok (value, s)

/-- Reads members up to the closing bracket. There is at least one; `next` is what may follow it.
Every round takes a character, so `fuel` need only exceed the length of the text. -/
def readMembers {α : Type} (options : ReadOptions) (close : Char) (next : Expectation)
    (member : List Char → Except ReadFailure (α × List Char)) :
    Nat → List Char → Except ReadFailure (List α × List Char)
  | 0, s => .error (.mismatch next s)
  | fuel + 1, s => do
    if s.head? = some close then .error ⟨.trailingComma, s⟩ else
    let (a, s) ← member s
    match skipBlanks s with
    | ',' :: s =>
      let s := skipBlanks s
      if options.allowTrailingCommas ∧ s.head? = some close then .ok ([a], s.tail)
      else do
        let (as, s) ← readMembers options close next member fuel s
        .ok (a :: as, s)
    | c :: s => if c = close then .ok ([a], s) else .error (.mismatch next (c :: s))
    | [] => .error (.mismatch next [])

/-- Reads what follows an opening bracket: members, or the closing bracket at once. -/
def readEnclosed {α : Type} (options : ReadOptions) (bound : Nat) (close : Char)
    (next : Expectation) (member : List Char → Except ReadFailure (α × List Char)) (s : List Char) :
    Except ReadFailure (List α × List Char) :=
  let s := skipBlanks s
  if s.head? = some close then .ok ([], s.tail)
  else readMembers options close next member bound s

/-- Reads a key, a colon and a value. -/
def readField (bound : Nat) (value : List Char → Except ReadFailure (Value × List Char))
    (s : List Char) : Except ReadFailure ((String × Value) × List Char) := do
  match skipBlanks s with
  | '"' :: rest =>
    let (key, s) ← readString bound ('"' :: rest) rest
    match skipBlanks s with
    | ':' :: s =>
      let (v, s) ← value s
      .ok ((key, v), s)
    | s => .error (.mismatch .colon s)
  | s => .error (.mismatch .key s)

/-- Reads an array or an object whose opening bracket has been taken, its values by `value`. -/
def readBracketed (options : ReadOptions) (bound : Nat)
    (value : List Char → Except ReadFailure (Value × List Char)) (bracket : Char) (s : List Char) :
    Except ReadFailure (Value × List Char) := do
  if bracket = '[' then
    let (items, s) ← readEnclosed options bound ']' .commaOrBracket value s
    .ok (.array items, s)
  else
    let (members, s) ← readEnclosed options bound '}' .commaOrBrace (readField bound value) s
    .ok (.object (Fields.ofMembers members), s)

/-- Reads one value after leading blanks, leaving what follows an opening bracket to `bracketed`. -/
def readValueWith (bound : Nat)
    (bracketed : Char → List Char → Except ReadFailure (Value × List Char)) (s : List Char) :
    Except ReadFailure (Value × List Char) :=
  match skipBlanks s with
  | [] => .error (.mismatch .value [])
  | c :: s =>
    if c = '{' ∨ c = '[' then bracketed c s
    else if c = '"' then do
      let (text, rest) ← readString bound (c :: s) s
      .ok (.string text, rest)
    else if c = 't' then readConstant "true" (.boolean true) (c :: s)
    else if c = 'f' then readConstant "false" (.boolean false) (c :: s)
    else if c = 'n' then readConstant "null" .null (c :: s)
    else if c = '-' ∨ c.isDigit then readNumber (c :: s)
    else .error (.mismatch .value (c :: s))

/-- Reads one value in which brackets may nest `room` deep, from a text shorter than `bound`. -/
def readValue (options : ReadOptions) (bound : Nat) :
    Nat → List Char → Except ReadFailure (Value × List Char)
  | 0 => readValueWith bound fun bracket s =>
    .error ⟨.tooDeep options.maxDepth.toNat, bracket :: s⟩
  | room + 1 => readValueWith bound (readBracketed options bound (readValue options bound room))

/-- Reads a whole text, which must be one value and blanks around it. -/
def readText (options : ReadOptions) (text : List Char) : Except ReadFailure Value := do
  let (value, s) ← readValue options (text.length + 1) options.maxDepth.toNat text
  match skipBlanks s with
  | [] => .ok value
  | s => .error ⟨.trailingCharacters, s⟩

/-- The value of a document. -/
def readDocument (options : ReadOptions) (text : String) : Except ReadError Value :=
  (readText options text.toList).mapError (·.locate text.toList)

end ContractDraft

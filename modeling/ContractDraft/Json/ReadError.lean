import ContractDraft.Text.Diagnostic

/-!
# Why a text is not a document

The causes for which reading fails, the position they are found at, and their wording. While a
text is being read, a failure keeps the text from the offending character on; the position is
counted once, at the end.
-/

namespace ContractDraft

/-- What the reader was looking for. -/
inductive Expectation where
  | value
  | key
  | colon
  | commaOrBrace
  | commaOrBracket
  | hexDigit
  | word (w : String)
  deriving DecidableEq, Repr

/-- The wording of an expectation. -/
def Expectation.text : Expectation → String
  | .value => "a value"
  | .key => "a string key"
  | .colon => "`:`"
  | .commaOrBrace => r"`,` or `}`"
  | .commaOrBracket => "`,` or `]`"
  | .hexDigit => "a hex digit"
  | .word w => w

/-- The causes for which a text is not a document. -/
inductive ReadCause where
  | unexpected (expected : Expectation) (found : Char)
  | unexpectedEnd (expected : Expectation)
  | unterminatedString
  | invalidEscape
  | controlCharacter
  | malformedNumber (literal : String)
  | trailingComma
  | trailingCharacters
  | tooDeep (limit : Nat)
  deriving DecidableEq, Repr

namespace ReadCause

/-- The wording of a cause. -/
def message : ReadCause → String
  | .unexpected expected found =>
    "expected " ++ expected.text ++ ", found " ++ Text.diagnosticQuoted found
  | .unexpectedEnd expected => "expected " ++ expected.text ++ ", found end of input"
  | .unterminatedString => "unterminated string"
  | .invalidEscape => "invalid escape sequence"
  | .controlCharacter => "control character in string"
  | .malformedNumber literal => "invalid number literal `" ++ literal ++ "`"
  | .trailingComma => "trailing comma"
  | .trailingCharacters => "unexpected content after the document"
  | .tooDeep limit => "nesting deeper than " ++ toString limit ++ " levels"

/-- What the reader was looking for, when something else was there. -/
def expected? : ReadCause → Option Expectation
  | .unexpected expected _ => some expected
  | .unexpectedEnd expected => some expected
  | _ => none

end ReadCause

/-- Why and where a text is not a document. -/
structure ReadError where
  /-- Number of characters before the offending one. -/
  position : Nat
  cause : ReadCause
  deriving DecidableEq, Repr

/-- The wording of an error with its position. -/
def ReadError.message (e : ReadError) : String :=
  e.cause.message ++ " at position " ++ toString e.position

/-- A place in a text, both numbers counted from one. -/
structure LineColumn where
  line : Nat
  column : Nat
  deriving DecidableEq, Repr

/-- The place after one more character. -/
def LineColumn.advance (place : LineColumn) (c : Char) : LineColumn :=
  if c = '\n' then ⟨place.line + 1, 1⟩ else ⟨place.line, place.column + 1⟩

/-- The place of the character that has `position` characters before it. -/
def lineColumn (text : List Char) (position : Nat) : LineColumn :=
  (text.take position).foldl LineColumn.advance ⟨1, 1⟩

/-- A failure while reading: its cause, and the text from the offending character on. -/
structure ReadFailure where
  cause : ReadCause
  rest : List Char
  deriving DecidableEq, Repr

/-- The failure of finding `rest` where something else was expected. -/
def ReadFailure.mismatch (expected : Expectation) (rest : List Char) : ReadFailure :=
  match rest with
  | [] => ⟨.unexpectedEnd expected, []⟩
  | c :: rest => ⟨.unexpected expected c, c :: rest⟩

/-- The position of a failure in the whole text. -/
def ReadFailure.locate (failure : ReadFailure) (text : List Char) : ReadError :=
  ⟨text.length - failure.rest.length, failure.cause⟩

end ContractDraft

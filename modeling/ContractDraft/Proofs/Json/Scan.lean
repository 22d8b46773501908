import ContractDraft.Json.Reader
import Mathlib.Data.Nat.Notation

/-!
# Reading with a cursor

A second reader of documents, which keeps the text as a whole and counts: the characters it has
taken and the brackets that are open. It takes single characters with `Scan.bump`, opens a bracket
with `Scan.enter` and closes it with `Scan.leave`, and it stops where a count would get out of
bounds: where a character is taken behind the end, or a bracket closed that is not open. Loops run
on a number that exceeds the length of the text. Apart from that the scan is the reader again,
clause by clause.
-/

namespace ContractDraft

/-- How many characters have been taken, and how many brackets are open. -/
structure Cursor where
  position : ℕ
  depth : ℕ

/-- Why a scan stops before it has a result. -/
inductive Halt where
  /-- The text is no document. -/
  | refused (e : ReadError)
  /-- A character was to be taken behind the end of the text. -/
  | overrun
  /-- A bracket was to be closed and none was open. -/
  | underflow
  /-- A loop took more rounds than the text has characters. -/
  | exhausted

/-- Reading with a cursor. -/
abbrev Scan (α : Type) := StateT Cursor (Except Halt) α

namespace Scan

section scan

variable {α : Type} (options : ReadOptions) (text : List Char)

/-! ## Single steps -/

def halt (reason : Halt) : Scan α := fun _ => .error reason

def position : Scan ℕ := fun cursor => .ok (cursor.position, cursor)

/-- The character that is `offset` characters ahead. -/
def peekAt (offset : ℕ) : Scan (Option Char) := fun cursor =>
  .ok (text[cursor.position + offset]?, cursor)

def peek : Scan (Option Char) := peekAt text 0

/-- Takes a character, which must be there. -/
def bump : Scan Unit := fun cursor =>
  if cursor.position < text.length then .ok ((), { cursor with position := cursor.position + 1 })
  else .error .overrun

def refuseAt (position : ℕ) (cause : ReadCause) : Scan α := halt (.refused ⟨position, cause⟩)

def refuse (cause : ReadCause) : Scan α := do refuseAt (← position) cause

/-- Refuses the next character, or the end of the text. -/
def mismatch (expected : Expectation) : Scan α := do
  match ← peek text with
  | some found => refuse (.unexpected expected found)
  | none => refuse (.unexpectedEnd expected)

/-- Opens a bracket, for which there must be room. -/
def enter : Scan Unit := fun cursor =>
  if options.maxDepth.toNat ≤ cursor.depth then
    refuse (.tooDeep options.maxDepth.toNat) cursor
  else .ok ((), { cursor with depth := cursor.depth + 1 })

/-- Closes a bracket, which must be open. -/
def leave : Scan Unit := fun cursor =>
  match cursor.depth with
  | 0 => .error .underflow
  | depth + 1 => .ok ((), { cursor with depth })

/-- Takes characters of a class as long as there are any. -/
def skipWhile (p : Char → Bool) : ℕ → Scan Unit
  | 0 => halt .exhausted
  | fuel + 1 => do
    match ← peek text with
    | some c => if p c then do bump text; skipWhile p fuel else pure ()
    | none => pure ()

def skip : Scan Unit := skipWhile text isBlank (text.length + 1)

/-! ## Strings -/

def hex : ℕ → ℕ → Scan ℕ
  | 0, high => pure high
  | count + 1, high => do
    match ← peek text with
    | none => refuse (.unexpectedEnd .hexDigit)
    | some c =>
      match Text.hexValue? c with
      | some digit => do bump text; hex count (high * 16 + digit)
      | none => refuse .invalidEscape

/-- The character that a number stands for, or the number with the one that must follow. -/
def decode (n start : ℕ) : Scan Char :=
  if isHighSurrogate n then do
    -- Both characters are looked at before one of them is taken.
    if (← peek text) = some '\\' ∧ (← peekAt text 1) = some 'u' then do
      bump text
      bump text
      let low ← hex text 4 0
      if isLowSurrogate low then pure (joinSurrogates n low) else refuseAt start .invalidEscape
    else refuseAt start .invalidEscape
  else if isLowSurrogate n then refuseAt start .invalidEscape
  else pure (Char.ofNat n)

/-- What follows a backslash, in a string that begins at `start`. -/
def escape (start : ℕ) : Scan Char := do
  match ← peek text with
  | none => refuseAt start .unterminatedString
  | some c =>
    if c = 'u' then do
      -- The backslash has been taken, so it stands one character in front of the cursor.
      let behind ← position
      bump text
      let n ← hex text 4 0
      decode text n (behind - 1)
    else
      match simpleEscape? c with
      | some decoded => do bump text; pure decoded
      | none => refuse .invalidEscape

def chars (start : ℕ) : ℕ → Scan (List Char)
  | 0 => halt .exhausted
  | fuel + 1 => do
    match ← peek text with
    | none => refuseAt start .unterminatedString
    | some c =>
      if c = '"' then do bump text; pure []
      else if c = '\\' then do
        bump text
        let decoded ← escape text start
        let rest ← chars start fuel
        pure (decoded :: rest)
      else if c.toNat < 0x20 then refuse .controlCharacter
      else do
        bump text
        let rest ← chars start fuel
        pure (c :: rest)

/-- A string, from its opening quotation mark on. -/
def string : Scan String := do
  let start ← position
  bump text
  let cs ← chars text start (text.length + 1)
  pure (String.ofList cs)

/-! ## Words and numbers -/

def word (whole : String) : List Char → Scan Unit
  | [] => pure ()
  | letter :: letters => do
    if (← peek text) = some letter then do bump text; word whole letters
    else mismatch text (.word whole)

def number : Scan Value := do
  let start ← position
  skipWhile text isNumberChar (text.length + 1)
  let stop ← position
  let literal := (text.drop start).take (stop - start)
  match Numeral.ofLiteral? literal with
  | some n => pure n.value
  | none => refuseAt start (.malformedNumber (String.ofList literal))

/-! ## Members -/

/-- Goes on behind the member `a`, with `others` if there are more. -/
def behind (close : Char) (next : Expectation) (others : Scan (List α)) (a : α) :
    Scan (List α) := do
  skip text
  match ← peek text with
  | some c =>
    if c = ',' then do
      bump text
      skip text
      if (← peek text) = some close ∧ options.allowTrailingCommas then do
        bump text
        pure [a]
      else do
        -- A bracket that may not follow the comma is refused by the next round.
        let rest ← others
        pure (a :: rest)
    else if c = close then do bump text; pure [a]
    else mismatch text next
  | none => mismatch text next

def members (close : Char) (next : Expectation) (member : Scan α) : ℕ → Scan (List α)
  | 0 => halt .exhausted
  | fuel + 1 => do
    skip text
    if (← peek text) = some close then refuse .trailingComma
    else do
      let a ← member
      behind options text close next (members close next member fuel) a

/-- Brackets and what is between them. The bracket is closed on each of the two ways out. -/
def enclosed (close : Char) (next : Expectation) (member : Scan α) : Scan (List α) := do
  enter options
  bump text
  skip text
  if (← peek text) = some close then do
    bump text
    leave
    pure []
  else do
    let items ← members options text close next member (text.length + 1)
    leave
    pure items

def field (value : Scan Value) : Scan (String × Value) := do
  if (← peek text) = some '"' then do
    let key ← string text
    skip text
    if (← peek text) = some ':' then do
      bump text
      let v ← value
      pure (key, v)
    else mismatch text .colon
  else mismatch text .key

/-! ## Values -/

/-- A value, in which brackets nest less than `fuel` deep. -/
def value : ℕ → Scan Value
  | 0 => halt .exhausted
  | fuel + 1 => do
    skip text
    match ← peek text with
    | none => mismatch text .value
    | some c =>
      if c = '{' then do
        let fields ← enclosed options text '}' .commaOrBrace (field text (value fuel))
        pure (.object (Fields.ofMembers fields))
      else if c = '[' then do
        let items ← enclosed options text ']' .commaOrBracket (value fuel)
        pure (.array items)
      else if c = '"' then do
        let s ← string text
        pure (.string s)
      else if c = 't' then do word text "true" "true".toList; pure (.boolean true)
      else if c = 'f' then do word text "false" "false".toList; pure (.boolean false)
      else if c = 'n' then do word text "null" "null".toList; pure .null
      else if c = '-' ∨ c.isDigit then number text
      else mismatch text .value

/-- A whole text, with nothing but blanks around the value. -/
def document : Scan Value := do
  let v ← value options text (options.maxDepth.toNat + 1)
  skip text
  if (← position) < text.length then refuse .trailingCharacters
  else pure v

end scan

end Scan

/-- The value of a document, read with a cursor that starts at the front and outside of brackets. -/
def scanDocument (options : ReadOptions) (text : String) : Except Halt Value :=
  (Scan.document options text.toList ⟨0, 0⟩).map (·.1)

end ContractDraft

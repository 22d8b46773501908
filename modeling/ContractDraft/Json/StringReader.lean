import ContractDraft.Json.ReadError

/-!
# Reading string literals

The characters between two quotes, with every escape decoded. A character outside the basic plane
may be written as two escapes, a high and a low surrogate; surrogates in any other arrangement are
refused.
-/

namespace ContractDraft

/-- The letters that stand for one character after a backslash. -/
def simpleEscape? : Char → Option Char
  | '"' => some '"'
  | '\\' => some '\\'
  | '/' => some '/'
  | 'b' => some '\x08'
  | 'f' => some '\x0c'
  | 'n' => some '\n'
  | 'r' => some '\r'
  | 't' => some '\t'
  | _ => none

/-- Reads `count` more hexadecimal digits of a number whose digits so far have the value `high`. -/
def readHex : Nat → Nat → List Char → Except ReadFailure (Nat × List Char)
  | 0, high, s => .ok (high, s)
  | _ + 1, _, [] => .error (.mismatch .hexDigit [])
  | count + 1, high, c :: rest =>
    match Text.hexValue? c with
    | some digit => readHex count (high * 16 + digit) rest
    | none => .error ⟨.invalidEscape, c :: rest⟩

/-- First half of a character outside the basic plane. -/
def isHighSurrogate (n : Nat) : Bool := 0xD800 ≤ n && n < 0xDC00

/-- Second half of a character outside the basic plane. -/
def isLowSurrogate (n : Nat) : Bool := 0xDC00 ≤ n && n < 0xE000

/-- The character of which `high` and `low` are the halves. -/
def joinSurrogates (high low : Nat) : Char :=
  Char.ofNat (0x10000 + (high - 0xD800) * 0x400 + (low - 0xDC00))

/-- Reads what follows `\u`: one number, or two that are the halves of one character. Text `start`
begins at the backslash. -/
def readUnicodeEscape (start s : List Char) : Except ReadFailure (Char × List Char) := do
  let (n, s) ← readHex 4 0 s
  if isHighSurrogate n then
    match s with
    | '\\' :: 'u' :: s =>
      let (low, s) ← readHex 4 0 s
      if isLowSurrogate low then .ok (joinSurrogates n low, s) else .error ⟨.invalidEscape, start⟩
    | _ => .error ⟨.invalidEscape, start⟩
  else if isLowSurrogate n then .error ⟨.invalidEscape, start⟩
  else .ok (Char.ofNat n, s)

/-- Reads what follows a backslash, in a string whose opening quote starts `opening`. -/
def readEscape (opening : List Char) : List Char → Except ReadFailure (Char × List Char)
  | [] => .error ⟨.unterminatedString, opening⟩
  | 'u' :: s => readUnicodeEscape ('\\' :: 'u' :: s) s
  | c :: s =>
    match simpleEscape? c with
    | some decoded => .ok (decoded, s)
    | none => .error ⟨.invalidEscape, c :: s⟩

/-- Reads up to the closing quote, in a string whose opening quote starts `opening`. Every round
takes a character, so `fuel` need only reach the length of the text. -/
def readStringBody (opening : List Char) :
    Nat → List Char → Except ReadFailure (List Char × List Char)
  | 0, _ => .error ⟨.unterminatedString, opening⟩
  | _ + 1, [] => .error ⟨.unterminatedString, opening⟩
  | fuel + 1, c :: s =>
    if c = '"' then .ok ([], s)
    else if c = '\\' then do
      let (decoded, s) ← readEscape opening s
      let (chars, s) ← readStringBody opening fuel s
      .ok (decoded :: chars, s)
    else if c.toNat < 0x20 then .error ⟨.controlCharacter, c :: s⟩
    else do
      let (chars, s) ← readStringBody opening fuel s
      .ok (c :: chars, s)

/-- Reads a string literal whose opening quote was taken from the front of `opening`, in a text
shorter than `bound`. -/
def readString (bound : Nat) (opening s : List Char) :
    Except ReadFailure (String × List Char) := do
  let (chars, s) ← readStringBody opening bound s
  .ok (String.ofList chars, s)

end ContractDraft

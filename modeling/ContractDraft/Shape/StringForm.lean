import ContractDraft.Text.LetterCase
import ContractDraft.Text.Pattern

/-!
# Forms of strings

The strings that are recognised by their form: tokens of an enumeration, addresses, identifiers,
dates and points in time. Most forms are patterns; some have a guard in front, which looks at the
bytes of a string in UTF-8 and spares the pattern most strings.
-/

namespace ContractDraft.StringForm

open Text

/-! ## Guards -/

/-- What is asked of the bytes of a string: how many they are, and which ASCII character is at one
place of them. -/
structure ByteGuard where
  size : Nat → Bool
  mark : Option (Nat × Char) := none

/-- What a guard says of a string. There is no answer where it asks for a byte that the string does
not have. -/
def ByteGuard.answer? (guard : ByteGuard) (s : List Char) : Option Bool :=
  let bytes := s.flatMap String.utf8EncodeChar
  if guard.size bytes.length then
    match guard.mark with
    | none => some true
    | some (i, c) => bytes[i]?.map fun b => b = c.toNat.toUInt8
  else some false

/-- Whether a guard lets a string through. -/
def ByteGuard.passes (guard : ByteGuard) (s : List Char) : Bool :=
  guard.answer? s = some true

/-! ## Forms -/

/-- Groups of the given lengths with a separator between them. -/
def grouped (separator : Char) (group : Nat → Pattern) : List Nat → List Pattern
  | [] => []
  | [n] => [group n]
  | n :: ns => group n :: .just separator :: grouped separator group ns

/-- Capital letters and underscores, at least one. -/
def enumTokenPattern : Pattern :=
  .several (.char [.range 'A' 'Z', .range '_' '_'])

/-- Tokens of an enumeration. -/
def isEnumToken (s : List Char) : Bool :=
  enumTokenPattern.accepts s

/-- Anything with an at sign. -/
def isEmail (s : List Char) : Bool :=
  s.contains '@'

/-- Exactly 36 bytes, with a hyphen behind the first eight. -/
def uuidGuard : ByteGuard where
  size n := n = 36
  mark := some (8, '-')

/-- Hexadecimal digits in lower case. -/
def hexDigits (n : Nat) : Pattern :=
  .times n (.char [.range '0' '9', .range 'a' 'f'])

/-- Five groups of hexadecimal digits. -/
def uuidPattern : Pattern :=
  .row (grouped '-' hexDigits [8, 4, 4, 4, 12])

/-- Identifiers, in either letter case. -/
def isUuid (s : List Char) : Bool :=
  uuidGuard.passes s && uuidPattern.accepts (lower s)

/-- Decimal digits of any script. -/
def digits (n : Nat) : Pattern :=
  .times n (.char [.decimalDigit])

/-- Exactly ten bytes. -/
def dateGuard : ByteGuard where
  size n := n = 10

/-- Year, month and day. -/
def datePattern : Pattern :=
  .row (grouped '-' digits [4, 2, 2])

/-- Calendar dates. -/
def isDate (s : List Char) : Bool :=
  dateGuard.passes s && datePattern.accepts s

/-- At least 19 bytes, with the letter `T` behind the first ten. -/
def dateTimeGuard : ByteGuard where
  size n := 19 ≤ n
  mark := some (10, 'T')

/-- Year, month and day, the letter `T`, hours, minutes and seconds, then optionally a fraction of
the second, and optionally the letter `Z` or a distance from it. -/
def dateTimePattern : Pattern :=
  .row (grouped '-' digits [4, 2, 2] ++ .just 'T' :: grouped ':' digits [2, 2, 2] ++
    [.optional (.row [.just '.', .several (.char [.decimalDigit])]),
      .optional (.either (.just 'Z')
        (.row (.char [.range '+' '+', .range '-' '-'] :: grouped ':' digits [2, 2])))])

/-- Points in time. -/
def isDateTime (s : List Char) : Bool :=
  dateTimeGuard.passes s && dateTimePattern.accepts s

end ContractDraft.StringForm

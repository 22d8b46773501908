import ContractDraft.Json.Value

/-!
# JSON number literals

The grammar of number literals and the value of a literal: a literal without fraction and exponent
is a whole number if it fits 64 bits, every other literal is the nearest binary64 number.
-/

namespace ContractDraft

/-- The parts of a number literal. -/
structure Numeral where
  negative : Bool
  whole : List Char
  fraction : Option (List Char)
  exponent : Option Int
  deriving DecidableEq, Repr

namespace Numeral

/-- The whole number that ASCII digits write. -/
def digitsValue (digits : List Char) : Nat :=
  Nat.ofDigitChars 10 digits 0

/-- Splits off the leading digits, of which there must be one. -/
def someDigits? (s : List Char) : Option (List Char × List Char) :=
  match s.takeWhile Char.isDigit with
  | [] => none
  | digits => some (digits, s.dropWhile Char.isDigit)

/-- The whole part: a zero, or digits of which the first is not zero. -/
def whole? : List Char → Option (List Char × List Char)
  | '0' :: rest => some (['0'], rest)
  | s => someDigits? s

/-- The fraction, if there is a point. -/
def fraction? : List Char → Option (Option (List Char) × List Char)
  | '.' :: rest => (someDigits? rest).map fun (digits, rest) => (some digits, rest)
  | s => some (none, s)

/-- The digits of an exponent with its sign. -/
def signedDigits? : List Char → Option (Int × List Char)
  | '+' :: rest => (someDigits? rest).map fun (digits, rest) => ((digitsValue digits : Int), rest)
  | '-' :: rest => (someDigits? rest).map fun (digits, rest) => (-(digitsValue digits : Int), rest)
  | s => (someDigits? s).map fun (digits, rest) => ((digitsValue digits : Int), rest)

/-- The exponent, if there is an `e` or `E`. -/
def exponent? : List Char → Option (Option Int × List Char)
  | [] => some (none, [])
  | c :: rest =>
    if c = 'e' ∨ c = 'E' then (signedDigits? rest).map fun (n, rest) => (some n, rest)
    else some (none, c :: rest)

/-- Splits a number literal into its sign and the rest. -/
def sign : List Char → Bool × List Char
  | '-' :: rest => (true, rest)
  | s => (false, s)

/-- The parts of a text that is one number literal. -/
def ofLiteral? (s : List Char) : Option Numeral := do
  let (negative, s) := sign s
  let (whole, s) ← whole? s
  let (fraction, s) ← fraction? s
  let (exponent, s) ← exponent? s
  if s.isEmpty then some ⟨negative, whole, fraction, exponent⟩ else none

/-- The whole number of a literal without fraction and exponent. -/
def toInt? (n : Numeral) : Option Int :=
  match n.fraction, n.exponent with
  | none, none =>
    let magnitude : Int := digitsValue n.whole
    some (if n.negative then -magnitude else magnitude)
  | _, _ => none

/-- The binary64 number nearest to the literal. -/
def toBinary64 (n : Numeral) : Binary64 :=
  let fraction := n.fraction.getD []
  Binary64.ofDecimal n.negative (digitsValue (n.whole ++ fraction))
    (n.exponent.getD 0 - fraction.length)

/-- The value that a literal stands for. -/
def value (n : Numeral) : Value :=
  match n.toInt? with
  | some i =>
    if Int64.minValue.toInt ≤ i ∧ i ≤ Int64.maxValue.toInt then .integer (Int64.ofInt i)
    else .decimal n.toBinary64
  | none => .decimal n.toBinary64

end Numeral
end ContractDraft

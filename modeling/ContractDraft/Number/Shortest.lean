import ContractDraft.Number.Binary64

/-!
# Shortest decimal digits

The decimal with the fewest digits that reads back to a given binary64 number, and of those the
one nearest to it. For each count of digits only the two neighbours of the number on that decimal
grid can be the answer, so the search tries both with the reader itself.
-/

namespace ContractDraft

/-- The decimal `digits * 10 ^ exponent`. -/
structure Decimal where
  digits : Nat
  exponent : Int
  deriving DecidableEq, Repr

namespace Decimal

/-- Number of decimal digits of `n`; one for zero. -/
def digitCount (n : Nat) : Nat :=
  (Nat.toDigits 10 n).length

/-- Moves trailing zeros of the digits into the exponent; `fuel` bounds how many. -/
def trim : Nat → Decimal → Decimal
  | 0, d => d
  | fuel + 1, d =>
    if d.digits ≠ 0 ∧ d.digits % 10 = 0 then trim fuel ⟨d.digits / 10, d.exponent + 1⟩ else d

/-- The decimal without trailing zeros in its digits. -/
def normalize (d : Decimal) : Decimal :=
  trim (digitCount d.digits) d

end Decimal

/-- Which neighbour wins when a number lies exactly between two equally short decimals. -/
inductive TieRule where
  | up
  | even
  deriving DecidableEq, Repr

namespace Binary64

/-- The exact decimal expansion of the magnitude of this rank. -/
def exactDecimal (rank : Nat) : Decimal :=
  let shift := shiftOf rank
  if 1074 ≤ shift then ⟨significandOf rank * Nat.pow 2 (shift - 1074), 0⟩
  else ⟨significandOf rank * Nat.pow 5 (1074 - shift), (shift : Int) - 1074⟩

/-- Whether the decimal rounds to the magnitude of this rank. -/
def readsBack (rank : Nat) (d : Decimal) : Bool :=
  match ofDecimal false d.digits d.exponent with
  | .real _ r => r.val = rank
  | .nan => false

/-- The `p` with `10 ^ (p - 1) ≤ num / den < 10 ^ p`, for a quotient not below `10 ^ (-400)`. -/
def decimalPoint (num den : Nat) : Int :=
  (Decimal.digitCount (num * Nat.pow 10 400 / den) : Int) - 400

/-- The neighbour of the magnitude on the grid of multiples of `10 ^ exponent` that reads back, the
nearer one if both do. -/
def onGrid (tie : TieRule) (rank : Nat) (exponent : Int) : Option Decimal :=
  let (num, den) := ratio rank
  let n := if 0 ≤ exponent then num else num * Nat.pow 10 (-exponent).toNat
  let d := if 0 ≤ exponent then den * Nat.pow 10 exponent.toNat else den
  let below : Decimal := ⟨n / d, exponent⟩
  let above : Decimal := ⟨n / d + 1, exponent⟩
  let distance := 2 * (n % d)
  let preferBelow := distance < d || (distance = d && tie = .even && below.digits % 2 = 0)
  match readsBack rank below, readsBack rank above with
  | true, true => some (if preferBelow then below else above)
  | true, false => some below
  | false, true => some above
  | false, false => none

/-- The shortest decimal that reads back to the magnitude of this rank. Seventeen digits are always
enough; the exact expansion stands behind them so that the answer reads back by construction. -/
def shortest (tie : TieRule) (rank : Nat) : Decimal :=
  let (num, den) := ratio rank
  let point := decimalPoint num den
  let found := (List.range 17).findSome? fun (more : Nat) => onGrid tie rank (point - 1 - more)
  (found.getD (exactDecimal rank)).normalize

end Binary64
end ContractDraft

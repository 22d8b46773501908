/-!
# Binary64 numbers

The non-negative binary64 numbers stand in one ascending row: zero, the subnormal numbers, the
normal numbers, and infinity at the end. A number is its sign and its rank in that row. The rank
alone gives the significand and the exponent, and rounding to nearest is one division: a
significand that rounds up to the next power of two lands on the right rank without a special
case.
-/

namespace ContractDraft

/-- Rank of infinity, after every finite magnitude. -/
abbrev infinityRank : Nat := 0x7FF0000000000000

/-- How many magnitudes share an exponent: two to the power of 52. -/
abbrev binadeSize : Nat := 0x10000000000000

/-- A binary64 number. -/
inductive Binary64 where
  | real (negative : Bool) (rank : Fin (infinityRank + 1))
  | nan
  deriving DecidableEq, Repr

namespace Binary64

/-- The number of the given sign whose magnitude is `significand * 2 ^ (shift - 1074)`, for a
significand of at most 53 bits that has 53 bits unless `shift` is zero; infinity when that is too
large. -/
def ofParts (negative : Bool) (significand shift : Nat) : Binary64 :=
  .real negative ⟨min (shift * binadeSize + significand) infinityRank, by
    have : min (shift * binadeSize + significand) infinityRank ≤ infinityRank :=
      Nat.min_le_right _ _
    omega⟩

/-- Positive or negative zero. -/
def zero (negative : Bool) : Binary64 := ofParts negative 0 0

/-- Positive or negative infinity. -/
def infinity (negative : Bool) : Binary64 := .real negative ⟨infinityRank, by omega⟩

/-- Neither an infinity nor NaN. -/
def isFinite : Binary64 → Bool
  | .real _ rank => rank.val < infinityRank
  | .nan => false

/-- The exponent of the magnitude of this rank, counted from `2 ^ (-1074)`. -/
def shiftOf (rank : Nat) : Nat :=
  rank / binadeSize - 1

/-- The significand of the magnitude of this rank: normal numbers have a leading bit that the rank
does not show. -/
def significandOf (rank : Nat) : Nat :=
  rank - shiftOf rank * binadeSize

/-- The magnitude of this rank as a quotient of whole numbers. -/
def ratio (rank : Nat) : Nat × Nat :=
  let shift := shiftOf rank
  if 1074 ≤ shift then (significandOf rank * Nat.pow 2 (shift - 1074), 1)
  else (significandOf rank, Nat.pow 2 (1074 - shift))

/-- `n / d` rounded to the nearest whole number, halves to the even one. -/
def roundHalfEven (n d : Nat) : Nat :=
  let q := n / d
  let r := n % d
  if 2 * r < d ∨ (2 * r = d ∧ q % 2 = 0) then q else q + 1

/-- The binary64 number nearest to `num / den`, halves to the even significand. -/
def ofRatio (negative : Bool) (num den : Nat) : Binary64 :=
  let scaled := num * Nat.pow 2 1074
  let shift := Nat.log2 (scaled / den) - 52
  ofParts negative (roundHalfEven scaled (den * Nat.pow 2 shift)) shift

/-- The binary64 number nearest to `digits * 10 ^ exponent`. The first two branches only keep the
powers of ten small: there the result is known to be an infinity or a zero. -/
def ofDecimal (negative : Bool) (digits : Nat) (exponent : Int) : Binary64 :=
  if digits = 0 then zero negative
  else if 400 < exponent then infinity negative
  else if exponent + Nat.log2 digits + 1100 < 0 then zero negative
  else if 0 ≤ exponent then ofRatio negative (digits * Nat.pow 10 exponent.toNat) 1
  else ofRatio negative digits (Nat.pow 10 (-exponent).toNat)

/-- The product of two numbers, rounded to nearest. -/
def mul : Binary64 → Binary64 → Binary64
  | .real s a, .real t b =>
    if a.val < infinityRank ∧ b.val < infinityRank then
      ofRatio (s != t) ((ratio a).1 * (ratio b).1) ((ratio a).2 * (ratio b).2)
    else if a.val = 0 ∨ b.val = 0 then .nan
    else infinity (s != t)
  | _, _ => .nan

end Binary64
end ContractDraft

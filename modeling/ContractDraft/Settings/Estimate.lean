import ContractDraft.Json.Numeral
import ContractDraft.Number.Shortest

/-!
# Estimates of number literals

A number in a text of settings must not be too large for a binary64 number. That is judged by an
estimate: the digits that fit 64 bits, times a power of ten, where both factors and the product are
rounded. Close to the largest binary64 number the estimate and the exact value can differ.
-/

namespace ContractDraft.Numeral

/-- Appends digits to a number up to the first that would take it past 64 bits, and counts the
digits that are left. -/
def appendDigits (n : Nat) : List Char → Nat × Nat
  | [] => (n, 0)
  | c :: s =>
    let next := 10 * n + (c.toNat - '0'.toNat)
    if next < UInt64.size then appendDigits next s else (n, s.length + 1)

/-- The leading digits of a literal with their power of ten. Digits of the whole part that do not
fit count as zeros, those of the fraction are dropped. -/
def leading (n : Numeral) : Decimal :=
  let fraction := n.fraction.getD []
  let (whole, dropped) := appendDigits 0 n.whole
  let (digits, left) := appendDigits whole fraction
  ⟨digits, n.exponent.getD 0 + dropped - (fraction.length - left : Nat)⟩

/-- The estimated magnitude of a literal. -/
def estimate (n : Numeral) : Binary64 :=
  (Binary64.ofRatio false n.leading.digits 1).mul (.ofDecimal false 1 n.leading.exponent)

/-- Whether the estimate of a literal has no finite value. Zero is never too large, whatever its
exponent. -/
def isTooLarge (n : Numeral) : Bool :=
  n.leading.digits ≠ 0 && !n.estimate.isFinite

end ContractDraft.Numeral

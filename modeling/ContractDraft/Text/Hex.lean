/-!
# Hexadecimal digits

The value of one hexadecimal digit in either case, and lower-case hexadecimal text of a number.
-/

namespace ContractDraft.Text

/-- Value of an ASCII hexadecimal digit, in either letter case. -/
def hexValue? (c : Char) : Option Nat :=
  if '0' ≤ c ∧ c ≤ '9' then some (c.toNat - '0'.toNat)
  else if 'a' ≤ c ∧ c ≤ 'f' then some (c.toNat - 'a'.toNat + 10)
  else if 'A' ≤ c ∧ c ≤ 'F' then some (c.toNat - 'A'.toNat + 10)
  else none

/-- Lower-case hexadecimal digits of `n`, without padding. -/
def hexDigits (n : Nat) : List Char :=
  Nat.toDigits 16 n

/-- Lower-case hexadecimal digits of `n`, padded with zeros to four places. -/
def hexDigits4 (n : Nat) : List Char :=
  [n / 4096, n / 256, n / 16, n].map fun d => Nat.digitChar (d % 16)

end ContractDraft.Text

import ContractDraft.Number.Shortest

/-!
# Decimal text

How the digits of a number are laid out as text. A `DecimalStyle` holds the choices in which the two
outputs of the library differ: generated code and the compact form of a document.
-/

namespace ContractDraft

/-- Choices of a decimal text. Numbers from `10 ^ (leastPoint - 1)` up to `10 ^ 16` are written
positionally, with at least one digit on each side of the point; the others with an exponent. -/
structure DecimalStyle where
  leastPoint : Int
  signedExponent : Bool
  tie : TieRule

namespace DecimalStyle

/-- `count` zeros. -/
def zeros (count : Nat) : List Char :=
  List.replicate count '0'

/-- The digits with the decimal point `point` places after the first of them. -/
def positional (digits : List Char) (point : Int) : List Char :=
  if point ≤ 0 then '0' :: '.' :: zeros (-point).toNat ++ digits
  else if digits.length ≤ point.toNat then
    digits ++ zeros (point.toNat - digits.length) ++ ['.', '0']
  else digits.take point.toNat ++ '.' :: digits.drop point.toNat

/-- The digits with the decimal point after the first, times a power of ten. -/
def scientific (style : DecimalStyle) (digits : List Char) (exponent : Int) : List Char :=
  let mantissa := match digits with
    | [] => []
    | [d] => [d]
    | d :: ds => d :: '.' :: ds
  let sign := if exponent < 0 then ['-'] else if style.signedExponent then ['+'] else []
  mantissa ++ 'e' :: sign ++ Nat.toDigits 10 exponent.natAbs

/-- The text of the magnitude of a finite rank. -/
def magnitude (style : DecimalStyle) (rank : Nat) : List Char :=
  if rank = 0 then ['0', '.', '0']
  else
    let d := Binary64.shortest style.tie rank
    let digits := Nat.toDigits 10 d.digits
    let point := d.exponent + digits.length
    if style.leastPoint ≤ point ∧ point ≤ 16 then positional digits point
    else style.scientific digits (point - 1)

/-- The text of a finite number, or of `inf`, `-inf` and `NaN`. -/
def format (style : DecimalStyle) : Binary64 → String
  | .nan => "NaN"
  | .real negative rank =>
    let sign := if negative then "-" else ""
    if rank.val = infinityRank then sign ++ "inf"
    else sign ++ String.ofList (style.magnitude rank.val)

end DecimalStyle
end ContractDraft

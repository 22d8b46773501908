import ContractDraft.Text.Hex
import ContractDraft.Text.GraphemeExtend
import ContractDraft.Text.Printable

/-!
# Diagnostic quoting

How messages and signatures show characters: whatever a reader could not see on its own line is
written as an escape.
-/

namespace ContractDraft.Text

/-- The diagnostic form of a character between marks of the given kind: only that mark needs a
backslash, and characters that extend the one before them or that cannot be printed are written by
their code point. -/
def diagnosticChar (mark c : Char) : List Char :=
  if c = '\x00' then ['\\', '0']
  else if c = '\t' then ['\\', 't']
  else if c = '\r' then ['\\', 'r']
  else if c = '\n' then ['\\', 'n']
  else if c = '\\' then ['\\', '\\']
  else if c = mark then ['\\', c]
  else if isGraphemeExtend c || !isPrintable c then
    ['\\', 'u', '{'] ++ hexDigits c.toNat ++ ['}']
  else [c]

/-- A string in double quotes, for signatures. -/
def diagnosticString (s : String) : String :=
  String.ofList ('"' :: s.toList.flatMap (diagnosticChar '"') ++ ['"'])

/-- A character in single quotes, for messages. -/
def diagnosticQuoted (c : Char) : String :=
  String.ofList ('\'' :: diagnosticChar '\'' c ++ ['\''])

end ContractDraft.Text

import ContractDraft.Text.Hex

/-!
# String literals

Text between double quotes, with escapes that Java string literals know. Keys, patterns and examples
are written with it in the generated builder code.
-/

namespace ContractDraft.Text

/-- The written form of one character inside a string literal: the quote and the backslash take a
backslash, five control characters have letters, the others below U+0020 are written in hexadecimal,
and every other character stands for itself. -/
def escapeChar (c : Char) : List Char :=
  if c = '"' then ['\\', '"']
  else if c = '\\' then ['\\', '\\']
  else if c = '\n' then ['\\', 'n']
  else if c = '\r' then ['\\', 'r']
  else if c = '\t' then ['\\', 't']
  else if c = '\x08' then ['\\', 'b']
  else if c = '\x0c' then ['\\', 'f']
  else if c.toNat < 0x20 then '\\' :: 'u' :: hexDigits4 c.toNat
  else [c]

/-- The characters of a string literal without its surrounding quotes. -/
def escape (s : List Char) : List Char :=
  s.flatMap escapeChar

/-- The string literal that stands for `s`. -/
def quote (s : String) : String :=
  String.ofList ('"' :: escape s.toList ++ ['"'])

end ContractDraft.Text

import ContractDraft.Text.Numeric

/-!
# Patterns

Regular expressions for whole texts. A text is compared by one pass over it: behind each character
the pattern becomes the pattern of what may still follow (`Pattern.after`), and the text is accepted
if nothing need follow at its end.
-/

namespace ContractDraft.Text

/-- A part of a class of characters. -/
inductive ClassItem where
  /-- The characters between two characters, both included. -/
  | range (first last : Char)
  /-- The decimal digits of every script. -/
  | decimalDigit
  deriving DecidableEq, Repr

/-- Whether a character belongs to a part of a class. -/
def ClassItem.holds (c : Char) : ClassItem → Bool
  | .range first last => first ≤ c && c ≤ last
  | .decimalDigit => isDecimalDigit c

/-- A regular expression. -/
inductive Pattern where
  /-- No text at all. -/
  | never
  /-- The empty text. -/
  | empty
  /-- One character of a class. -/
  | char (items : List ClassItem)
  | seq (p q : Pattern)
  | either (p q : Pattern)
  /-- Any number of texts in a row, or none. -/
  | many (p : Pattern)
  deriving DecidableEq, Repr

namespace Pattern

/-- One character. -/
def just (c : Char) : Pattern := .char [.range c c]

/-- A fixed number of texts in a row. -/
def times (count : Nat) (p : Pattern) : Pattern :=
  match count with
  | 0 => .empty
  | n + 1 => .seq p (times n p)

/-- One text or several in a row. -/
def several (p : Pattern) : Pattern := .seq p (.many p)

/-- A text or none. -/
def optional (p : Pattern) : Pattern := .either p .empty

/-- Patterns in a row. -/
def row : List Pattern → Pattern
  | [] => .empty
  | [p] => p
  | p :: ps => .seq p (row ps)

/-- Whether the empty text is accepted. -/
def acceptsEmpty : Pattern → Bool
  | .never => false
  | .empty => true
  | .char _ => false
  | .seq p q => p.acceptsEmpty && q.acceptsEmpty
  | .either p q => p.acceptsEmpty || q.acceptsEmpty
  | .many _ => true

/-- Two patterns in a row, without those that add nothing. -/
def join : Pattern → Pattern → Pattern
  | .never, _ => .never
  | .empty, q => q
  | p, q => .seq p q

/-- One of two patterns, without those that accept nothing. -/
def choose : Pattern → Pattern → Pattern
  | .never, q => q
  | p, .never => p
  | p, q => .either p q

/-- What may follow the character `c` at the beginning of a text. -/
def after (c : Char) : Pattern → Pattern
  | .never => .never
  | .empty => .never
  | .char items => if items.any (·.holds c) then .empty else .never
  | .seq p q =>
    if p.acceptsEmpty then choose (join (p.after c) q) (q.after c) else join (p.after c) q
  | .either p q => choose (p.after c) (q.after c)
  | .many p => join (p.after c) (.many p)

/-- Whether the pattern is that of the whole text. -/
def accepts (p : Pattern) (s : List Char) : Bool :=
  (s.foldl (fun p c => p.after c) p).acceptsEmpty

end Pattern
end ContractDraft.Text

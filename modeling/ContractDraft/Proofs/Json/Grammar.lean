import ContractDraft.Json.Numeral
import Mathlib.Data.List.Basic

/-!
# The grammar of documents

Which texts are documents, and what they mean. The grammar says nothing of how a text is read: it
relates whole texts to values, and a text has a meaning if some derivation covers all of it. Numbers
and strings come first; arrays and objects are members between brackets. Nesting is part of the
grammar: `ValueText tolerant depth` derives the texts whose brackets nest at most `depth` deep.
-/

namespace ContractDraft

/-- Any number of spaces, tabs, line feeds and carriage returns. -/
def Blanks (s : List Char) : Prop := ∀ c ∈ s, c ∈ [' ', '\t', '\n', '\r']

/-! ## Numbers -/

/-- At least one decimal digit. -/
def Digits (s : List Char) : Prop := s ≠ [] ∧ ∀ c ∈ s, c.isDigit = true

/-- A minus sign, if the number has one. -/
def signText (negative : Bool) : List Char := if negative then ['-'] else []

/-- The whole part of a number: a zero alone, or digits of which the first is not zero. -/
def WholeText (s : List Char) : Prop := Digits s ∧ (s.head? = some '0' → s = ['0'])

/-- The fraction of a number, with its point. -/
inductive FractionText : List Char → Option (List Char) → Prop where
  | absent : FractionText [] none
  | present {digits : List Char} : Digits digits → FractionText ('.' :: digits) (some digits)

/-- The exponent of a number, with its letter and its sign. -/
inductive ExponentText : List Char → Option Int → Prop where
  | absent : ExponentText [] none
  | unsigned {e : Char} {digits : List Char} : e ∈ ['e', 'E'] → Digits digits →
      ExponentText (e :: digits) (some (Numeral.digitsValue digits))
  | plus {e : Char} {digits : List Char} : e ∈ ['e', 'E'] → Digits digits →
      ExponentText (e :: '+' :: digits) (some (Numeral.digitsValue digits))
  | minus {e : Char} {digits : List Char} : e ∈ ['e', 'E'] → Digits digits →
      ExponentText (e :: '-' :: digits) (some (-(Numeral.digitsValue digits)))

/-- A number literal, with its parts. -/
inductive NumberText : List Char → Numeral → Prop where
  | parts {negative : Bool} {whole fraction exponent : List Char}
      {fractionDigits : Option (List Char)} {power : Option Int} :
      WholeText whole → FractionText fraction fractionDigits → ExponentText exponent power →
      NumberText (signText negative ++ whole ++ fraction ++ exponent)
        ⟨negative, whole, fractionDigits, power⟩

/-- The literal writes the 64-bit integer `i`, without fraction and exponent. -/
def Numeral.IsInteger (n : Numeral) (i : Int64) : Prop :=
  n.fraction = none ∧ n.exponent = none ∧
    i.toInt = if n.negative then -(Numeral.digitsValue n.whole : Int)
      else Numeral.digitsValue n.whole

/-- What a number literal means: an integer if it writes one of 64 bits, and otherwise the binary64
number nearest to it. -/
inductive NumberMeaning (n : Numeral) : Value → Prop where
  | integer {i : Int64} : n.IsInteger i → NumberMeaning n (.integer i)
  | decimal : (∀ i, ¬ n.IsInteger i) → NumberMeaning n (.decimal n.toBinary64)

/-! ## Strings -/

/-- A hexadecimal digit in either case, and its value. -/
def HexDigit (c : Char) (n : ℕ) : Prop :=
  (n < 10 ∧ c.toNat = '0'.toNat + n) ∨
    (10 ≤ n ∧ n < 16 ∧ (c.toNat = 'a'.toNat + (n - 10) ∨ c.toNat = 'A'.toNat + (n - 10)))

/-- An escape of four hexadecimal digits, and the number they write. -/
inductive UnitText : List Char → ℕ → Prop where
  | digits {a b c d : Char} {w x y z : ℕ} : HexDigit a w → HexDigit b x → HexDigit c y →
      HexDigit d z → UnitText ['\\', 'u', a, b, c, d] (((w * 16 + x) * 16 + y) * 16 + z)

/-- The letters of short escapes, and the characters they stand for. -/
def shortEscapes : List (Char × Char) :=
  [('"', '"'), ('\\', '\\'), ('/', '/'), ('b', '\x08'), ('f', '\x0c'), ('n', '\n'), ('r', '\r'),
    ('t', '\t')]

/-- An escape, and the character it stands for. No character has a surrogate for its number, so a
hexadecimal escape stands alone only if it is no surrogate; a high surrogate goes with the low one
right behind it. -/
inductive EscapeText : List Char → Char → Prop where
  | short {letter c : Char} : (letter, c) ∈ shortEscapes → EscapeText ['\\', letter] c
  | unit {s : List Char} {c : Char} : UnitText s c.toNat → EscapeText s c
  | pair {s t : List Char} {high low : ℕ} {c : Char} : UnitText s high → UnitText t low →
      0xD800 ≤ high → high < 0xDC00 → 0xDC00 ≤ low → low < 0xE000 →
      c.toNat = 0x10000 + (high - 0xD800) * 0x400 + (low - 0xDC00) → EscapeText (s ++ t) c

/-- One character of a string, which stands for itself or is written as an escape. -/
inductive CharText : List Char → Char → Prop where
  | plain {c : Char} : c ≠ '"' → c ≠ '\\' → 0x20 ≤ c.toNat → CharText [c] c
  | escape {s : List Char} {c : Char} : EscapeText s c → CharText s c

/-- The characters of a string. -/
inductive CharsText : List Char → List Char → Prop where
  | nil : CharsText [] []
  | cons {s t : List Char} {c : Char} {cs : List Char} : CharText s c → CharsText t cs →
      CharsText (s ++ t) (c :: cs)

/-- A string between its quotation marks. -/
inductive StringText : List Char → String → Prop where
  | quoted {s chars : List Char} : CharsText s chars →
      StringText ('"' :: s ++ ['"']) (String.ofList chars)

/-! ## Values -/

/-- A value without brackets. -/
inductive ScalarText : List Char → Value → Prop where
  | null : ScalarText ['n', 'u', 'l', 'l'] .null
  | true : ScalarText ['t', 'r', 'u', 'e'] (.boolean true)
  | false : ScalarText ['f', 'a', 'l', 's', 'e'] (.boolean false)
  | number {s : List Char} {n : Numeral} {v : Value} : NumberText s n → NumberMeaning n v →
      ScalarText s v
  | string {s : List Char} {text : String} : StringText s text → ScalarText s (.string text)

section members

variable {α : Type} (Member : List Char → α → Prop)

/-- Members with blanks around them and a comma between every two. -/
inductive MembersText : List Char → List α → Prop where
  | last {before s after : List Char} {a : α} : Blanks before → Member s a → Blanks after →
      MembersText (before ++ s ++ after) [a]
  | cons {before s after rest : List Char} {a : α} {as : List α} : Blanks before → Member s a →
      Blanks after → MembersText rest as →
      MembersText (before ++ s ++ after ++ ',' :: rest) (a :: as)

/-- What stands between two brackets: blanks, or members, and behind these one more comma where that
is tolerated. -/
inductive EnclosedText (tolerant : Bool) : List Char → List α → Prop where
  | empty {s : List Char} : Blanks s → EnclosedText tolerant s []
  | members {s : List Char} {as : List α} : MembersText Member s as → EnclosedText tolerant s as
  | trailing {s after : List Char} {as : List α} : tolerant = true → MembersText Member s as →
      Blanks after → EnclosedText tolerant (s ++ ',' :: after) as

end members

/-- The fields that a row of members means: each key where it first occurs, with the value that it
has last. -/
structure Merges (members : List (String × Value)) (fields : Fields) : Prop where
  keys : fields.map (·.1) = (members.map (·.1)).eraseDups
  values : ∀ field ∈ fields, (members.reverse.find? fun m => m.1 = field.1) = some field

section brackets

variable (Item : List Char → Value → Prop)

/-- A key, a colon and a value. -/
inductive FieldText : List Char → String × Value → Prop where
  | field {s before after t : List Char} {key : String} {v : Value} : StringText s key →
      Blanks before → Blanks after → Item t v →
      FieldText (s ++ before ++ ':' :: (after ++ t)) (key, v)

/-- An array or an object. -/
inductive BracketText (tolerant : Bool) : List Char → Value → Prop where
  | array {s : List Char} {items : List Value} : EnclosedText Item tolerant s items →
      BracketText tolerant ('[' :: s ++ [']']) (.array items)
  | object {s : List Char} {members : List (String × Value)} {fields : Fields} :
      EnclosedText (FieldText Item) tolerant s members → Merges members fields →
      BracketText tolerant ('{' :: s ++ ['}']) (.object fields)

end brackets

/-- A value whose brackets nest at most `depth` deep. -/
def ValueText (tolerant : Bool) : ℕ → List Char → Value → Prop
  | 0, s, v => ScalarText s v
  | depth + 1, s, v => ScalarText s v ∨ BracketText (ValueText tolerant depth) tolerant s v

/-- A document: one value, and blanks around it. -/
inductive DocumentText (tolerant : Bool) (depth : ℕ) : List Char → Value → Prop where
  | document {before s after : List Char} {v : Value} : Blanks before →
      ValueText tolerant depth s v → Blanks after →
      DocumentText tolerant depth (before ++ s ++ after) v

end ContractDraft

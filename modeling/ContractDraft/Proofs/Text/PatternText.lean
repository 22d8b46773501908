import ContractDraft.Json.Numeral
import ContractDraft.Proofs.Text.Pattern

/-!
# Patterns as text

Regular expressions in the notation that the calls of dialects use, as far as all engines for it
agree: classes of characters and of ranges, characters that stand for themselves, escaped ones, and
what says how often they are repeated. Text in any other notation is not read. A text of characters
matches a text in this notation if it matches the pattern that the latter is read as
(`FullyMatches`).
-/

namespace ContractDraft.Text

namespace Pattern

/-- At least so many texts in a row. -/
def atLeast (count : ℕ) (p : Pattern) : Pattern := .seq (times count p) (.many p)

/-- The characters that do not stand for themselves. -/
def operators : List Char :=
  ['\\', '^', '$', '.', '|', '?', '*', '+', '(', ')', '[', ']', '{', '}']

/-- The parts of a class, up to the bracket that closes it. A hyphen in front of that bracket stands
for itself. -/
def readClass : List Char → Option (List ClassItem × List Char)
  | [] => none
  | ']' :: rest => some ([], rest)
  | first :: '-' :: ']' :: rest => some ([.range first first, .range '-' '-'], rest)
  | first :: '-' :: last :: rest =>
    (readClass rest).map fun (items, rest) => (.range first last :: items, rest)
  | c :: rest =>
    if c ∈ ['\\', '^', '[', '&'] then none
    else (readClass rest).map fun (items, rest) => (.range c c :: items, rest)

/-- A pattern of one character. -/
def readChar : List Char → Option (Pattern × List Char)
  | [] => none
  | '[' :: ']' :: _ => none
  | '[' :: rest => (readClass rest).map fun (items, rest) => (.char items, rest)
  | '\\' :: c :: rest => if c ∈ operators then some (.just c, rest) else none
  | c :: rest => if c ∈ operators then none else some (.just c, rest)

/-- How often the pattern `p` is repeated, once if nothing is said. -/
def readCount (p : Pattern) : List Char → Option (Pattern × List Char)
  | '+' :: rest => some (several p, rest)
  | '*' :: rest => some (.many p, rest)
  | '?' :: rest => some (optional p, rest)
  | '{' :: rest =>
    match rest.span Char.isDigit with
    | ([], _) => none
    | (digits, '}' :: rest) => some (times (Numeral.digitsValue digits) p, rest)
    | (digits, ',' :: '}' :: rest) => some (atLeast (Numeral.digitsValue digits) p, rest)
    | _ => none
  | rest => some (p, rest)

/-- The patterns that follow each other, in at most `size` characters of text. -/
def readRow : ℕ → List Char → Option (List Pattern)
  | _, [] => some []
  | _, ['$'] => some []
  | 0, _ => none
  | size + 1, text => do
    let (p, text) ← readChar text
    let (p, text) ← readCount p text
    let ps ← readRow size text
    return p :: ps

/-- The pattern of a text. The signs for beginning and end say nothing where the whole of a text has
to match. -/
def ofText? (text : String) : Option Pattern :=
  match text.toList with
  | '^' :: rest => (readRow rest.length rest).map row
  | whole => (readRow whole.length whole).map row

theorem matches_atLeast_char_iff {n : ℕ} {items : List ClassItem} {s : List Char} :
    (atLeast n (.char items)).Matches s ↔ n ≤ s.length ∧ ∀ c ∈ s, InClass items c := by
  simp only [atLeast, matches_seq_iff, matches_times_char_iff, matches_many_char_iff]
  constructor
  · rintro ⟨t, u, rfl, ⟨rfl, ht⟩, hu⟩
    exact ⟨by simp, List.forall_mem_append.mpr ⟨ht, hu⟩⟩
  · rintro ⟨hle, hall⟩
    have hlength : (s.take n).length = n := List.length_take_of_le hle
    refine ⟨s.take n, s.drop n, (List.take_append_drop n s).symm, ⟨hlength, ?_⟩, ?_⟩
    · exact fun c hc => hall c (List.mem_of_mem_take hc)
    · exact fun c hc => hall c (List.mem_of_mem_drop hc)

end Pattern

/-- The whole of a text of characters is of the pattern that a regular expression says. -/
def FullyMatches (expression : String) (s : List Char) : Prop :=
  ∃ p, Pattern.ofText? expression = some p ∧ p.Matches s

theorem fullyMatches_iff {expression : String} {p : Pattern}
    (h : Pattern.ofText? expression = some p) {s : List Char} :
    FullyMatches expression s ↔ p.Matches s := by
  simp [FullyMatches, h]

end ContractDraft.Text

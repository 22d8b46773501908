/-!
# Templates

A template is text with placeholders in braces. They are filled in one pass from the left, which
does not look at the values it puts in.
-/

namespace ContractDraft

namespace Template

/-- The placeholder whose opening brace stands right before `s`. -/
def placeholder? (names : List String) (s : List Char) : Option String :=
  let name := String.ofList (s.takeWhile (· ≠ '}'))
  if (s.dropWhile (· ≠ '}')).isEmpty then none
  else if name ∈ names then some name
  else none

/-- The template from here on with every placeholder replaced by its value, where `skip` characters
belong to a placeholder already replaced. An opening brace that does not begin a known placeholder
stands for itself. -/
def fillAfter (values : List (String × String)) : Nat → List Char → List Char
  | _, [] => []
  | skip + 1, _ :: s => fillAfter values skip s
  | 0, c :: s =>
    if c = '{' then
      match placeholder? (values.map Prod.fst) s with
      | some name =>
        ((values.lookup name).getD "").toList ++ fillAfter values (name.length + 1) s
      | none => c :: fillAfter values 0 s
    else c :: fillAfter values 0 s

/-- The template with every placeholder replaced by its value. -/
def fill (values : List (String × String)) (template : List Char) : List Char :=
  fillAfter values 0 template

/-- The lines of a text; a text without line breaks is one line. -/
def splitLines : List Char → List (List Char)
  | [] => [[]]
  | c :: s =>
    if c = '\n' then [] :: splitLines s
    else match splitLines s with
      | [] => [[c]]
      | line :: rest => (c :: line) :: rest

end Template
end ContractDraft

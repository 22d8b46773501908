import ContractDraft.Dialect.Basic
import ContractDraft.Dialect.Template
import ContractDraft.Number.DecimalStyle
import ContractDraft.Text.Escape

/-!
# Rendering

From statements to lines in a dialect. What a statement writes and what it does to the open scopes
are two functions, so that the scopes of a list of statements can be followed without its text.
-/

namespace ContractDraft

/-- Decimals in builder code are positional from `0.0001` up to `10 ^ 16`, a positive exponent has
no sign, and of two equally near decimals the larger one is written. -/
def literalDecimals : DecimalStyle := ⟨-3, false, .up⟩

/-- The scopes that are open at some point of a block. -/
structure Scopes where
  /-- Levels of indentation. -/
  depth : Nat := 0
  /-- The builder variables of the open scopes, innermost first. -/
  bound : List String := []
  /-- How many builder variables the block has used so far. -/
  allocated : Nat := 0
  deriving DecidableEq, Repr

namespace Scopes

/-- The variable of the innermost scope. -/
def current (scopes : Scopes) : String := scopes.bound.headD ""

/-- The variable of the scope around the innermost one. -/
def enclosing (scopes : Scopes) : String := scopes.bound.tail.headD ""

/-- The scopes after `count` more variables are used. -/
def allocate (scopes : Scopes) (count : Nat) : Scopes :=
  { scopes with allocated := scopes.allocated + count }

/-- The scopes inside a new scope. -/
def enter (scopes : Scopes) (var : String) (levels : Nat) : Scopes :=
  { scopes with depth := scopes.depth + levels, bound := var :: scopes.bound }

/-- The scopes after the innermost one is closed. -/
def leave (scopes : Scopes) (levels : Nat) : Scopes :=
  { scopes with depth := scopes.depth - levels, bound := scopes.bound.tail }

end Scopes

/-- `count` times the text `s`. -/
def repeatText (s : String) (count : Nat) : String :=
  if s.isEmpty then "" else String.join (List.replicate count s)

namespace Dialect

/-- The text of an example. -/
def literal (d : Dialect) : Literal → String
  | .text s => Text.quote s
  | .integer n => toString n.toInt ++ d.integerSuffix
  | .decimal x => literalDecimals.format x
  | .boolean b => if b then "true" else "false"

/-- The arguments of a matcher call: key, pattern and example, as far as there are any. -/
def arguments (d : Dialect) (key : Option String) (m : Matcher) : String :=
  let call := d.matchers.call m.shape
  let sample := if call.withExample then m.sample.map d.literal else none
  String.intercalate ", "
    ((key.map Text.quote).toList ++ (call.pattern.map Text.quote).toList ++ sample.toList)

/-- The `n`-th builder variable of a block. -/
def builderVar (d : Dialect) (n : Nat) : String :=
  if n = 0 then d.varPrefix else d.varPrefix ++ toString n

/-- The lines of a filled template at some depth. -/
def lines (d : Dialect) (depth : Nat) (template : String) (values : List (String × String)) :
    List String :=
  if template.isEmpty then []
  else (Template.splitLines (Template.fill values template.toList)).map fun line =>
    repeatText d.indent depth ++ String.ofList line

/-- The values of the placeholders for a matcher call. -/
def callValues (d : Dialect) (key : Option String) (m : Matcher) : List (String × String) :=
  [("method", (d.matchers.call m.shape).method), ("args", d.arguments key m)]

/-- The values of the placeholders for the bounds of an array. -/
def boundValues (bounds : ArrayBounds) : List (String × String) :=
  [("min", toString bounds.minLen), ("examples", toString bounds.examples)]

/-- The lines that open an inner scope. Every such template knows keys and bounds, which are empty
where the statement has none. -/
def opening (d : Dialect) (scopes : Scopes) (template : String) (key : Option String)
    (bounds : Option ArrayBounds) : List String :=
  d.lines scopes.depth template
    ([("key", (key.map Text.quote).getD ""), ("var", scopes.current),
      ("child", d.builderVar scopes.allocated)] ++
      (bounds.map boundValues).getD [("min", ""), ("examples", "")])

/-- The lines that close an inner scope. -/
def closing (d : Dialect) (scopes : Scopes) (template : String) : List String :=
  d.lines (scopes.depth - 1) template [("var", scopes.enclosing), ("child", scopes.current)]

/-- The lines of one statement. -/
def statementLines (d : Dialect) (scopes : Scopes) : Statement → List String
  | .rootOpen name =>
    d.lines scopes.depth d.rootOpen [("name", name), ("var", d.builderVar scopes.allocated)]
  | .rootClose => d.lines (scopes.depth - 1) d.rootClose [("var", scopes.current)]
  | .rootArrayOpen name nesting bounds =>
    let template := match nesting with
      | .object => d.rootArrayObjectOpen
      | .array => d.rootArrayNestedOpen
    d.lines scopes.depth template
      ([("name", name), ("var", d.builderVar scopes.allocated),
        ("child", d.builderVar (scopes.allocated + 1))] ++ boundValues bounds)
  | .rootArrayClose nesting =>
    let template := match nesting with
      | .object => d.rootArrayObjectClose
      | .array => d.rootArrayNestedClose
    d.lines (scopes.depth - 1) template [("child", scopes.current)]
  | .rootArrayMatcher name m bounds =>
    d.lines scopes.depth d.rootArrayMatcher
      ([("name", name), ("var", d.builderVar scopes.allocated)] ++ d.callValues none m ++
        boundValues bounds)
  | .rootEmptyArray name =>
    d.lines scopes.depth d.rootEmptyArray [("name", name), ("var", d.builderVar scopes.allocated)]
  | .fragmentOpen name =>
    d.lines scopes.depth d.fragmentOpen [("name", name), ("var", d.builderVar scopes.allocated)]
  | .fragmentClose =>
    d.lines (scopes.depth - d.fragmentIndent.toNat) d.fragmentClose [("var", scopes.current)]
  | .objectOpen none => d.opening scopes d.objectOpenElement none none
  | .objectOpen (some key) => d.opening scopes d.objectOpen key none
  | .objectClose => d.closing scopes d.objectClose
  | .referenceOpen none => d.opening scopes d.referenceOpenElement none none
  | .referenceOpen (some key) => d.opening scopes d.referenceOpen key none
  | .reference name => d.lines scopes.depth d.reference [("name", name), ("var", scopes.current)]
  | .referenceClose => d.closing scopes d.referenceClose
  | .repeatOpen key .object bounds => d.opening scopes d.repeatObjectOpen key bounds
  | .repeatOpen key .array bounds => d.opening scopes d.repeatNestedOpen key bounds
  | .repeatClose .object => d.closing scopes d.repeatObjectClose
  | .repeatClose .array => d.closing scopes d.repeatNestedClose
  | .repeatFragment key name bounds =>
    d.lines scopes.depth d.repeatFragment
      ([("key", Text.quote key), ("name", name), ("var", scopes.current),
        ("child", d.builderVar scopes.allocated)] ++ boundValues bounds)
  | .repeatMatcher key m bounds =>
    d.lines scopes.depth d.repeatMatcher
      ([("key", Text.quote key), ("var", scopes.current)] ++ d.callValues none m ++
        boundValues bounds)
  | .arrayOpen => d.opening scopes d.arrayOpen none none
  | .arrayClose => d.closing scopes d.arrayClose
  | .emptyArray none =>
    d.lines scopes.depth d.emptyArray
      [("var", scopes.current), ("child", d.builderVar scopes.allocated)]
  | .emptyArray (some key) =>
    d.lines scopes.depth d.repeatEmpty
      [("key", Text.quote key), ("var", scopes.current),
        ("child", d.builderVar scopes.allocated)]
  | .scalar key m =>
    d.lines scopes.depth d.call ([("var", scopes.current)] ++ d.callValues key m)

/-- The scopes after one statement. -/
def scopesAfter (d : Dialect) (scopes : Scopes) : Statement → Scopes
  | .rootOpen _ => (scopes.allocate 1).enter (d.builderVar scopes.allocated) 1
  | .rootArrayOpen .. => (scopes.allocate 2).enter (d.builderVar (scopes.allocated + 1)) 1
  | .fragmentOpen _ =>
    (scopes.allocate 1).enter (d.builderVar scopes.allocated) d.fragmentIndent.toNat
  | .objectOpen _ | .referenceOpen _ | .repeatOpen .. | .arrayOpen =>
    (scopes.allocate 1).enter (d.builderVar scopes.allocated) 1
  | .rootClose | .rootArrayClose _ | .objectClose | .referenceClose | .repeatClose _
  | .arrayClose => scopes.leave 1
  | .fragmentClose => scopes.leave d.fragmentIndent.toNat
  | .rootArrayMatcher .. | .rootEmptyArray _ | .repeatFragment .. | .emptyArray _ =>
    scopes.allocate 1
  | .reference _ | .repeatMatcher .. | .scalar .. => scopes

/-- The lines of statements that follow each other. -/
def renderFrom (d : Dialect) (scopes : Scopes) : List Statement → List String
  | [] => []
  | s :: rest => d.statementLines scopes s ++ d.renderFrom (d.scopesAfter scopes s) rest

/-- The lines of a block. -/
def render (d : Dialect) (block : Block) : List String :=
  d.renderFrom {} block.statements

end Dialect
end ContractDraft

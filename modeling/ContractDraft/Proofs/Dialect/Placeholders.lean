import ContractDraft.Dialect.Rendering
import ContractDraft.Proofs.Contract.Nesting

/-!
# Statements and their templates

A statement is written in one step: its template is filled with the placeholders that the statement
knows, at the depth of its scope (`Dialect.statementLines_eq`). A statement changes the open scopes
in one of three ways: it opens a scope, closes one, or only takes variables. What is proved about
rendering goes through these equations and does not look at single statements again.
-/

namespace ContractDraft

/-- How many builder variables a statement takes. -/
def Statement.variables : Statement → ℕ
  | .rootArrayOpen .. => 2
  | .rootOpen _ | .rootArrayMatcher .. | .rootEmptyArray _ | .fragmentOpen _ | .objectOpen _
  | .referenceOpen _ | .repeatOpen .. | .repeatFragment .. | .arrayOpen | .emptyArray _ => 1
  | .rootClose | .rootArrayClose _ | .fragmentClose | .objectClose | .reference _
  | .referenceClose | .repeatClose _ | .repeatMatcher .. | .arrayClose | .scalar .. => 0

/-- How many builder variables statements take together. -/
def variableCount : List Statement → ℕ
  | [] => 0
  | x :: rest => x.variables + variableCount rest

namespace Dialect

variable (d : Dialect) (scopes : Scopes)

/-! ## Lines -/

/-- The template of a statement. -/
def template : Statement → String
  | .rootOpen _ => d.rootOpen
  | .rootClose => d.rootClose
  | .rootArrayOpen _ .object _ => d.rootArrayObjectOpen
  | .rootArrayOpen _ .array _ => d.rootArrayNestedOpen
  | .rootArrayClose .object => d.rootArrayObjectClose
  | .rootArrayClose .array => d.rootArrayNestedClose
  | .rootArrayMatcher .. => d.rootArrayMatcher
  | .rootEmptyArray _ => d.rootEmptyArray
  | .fragmentOpen _ => d.fragmentOpen
  | .fragmentClose => d.fragmentClose
  | .objectOpen none => d.objectOpenElement
  | .objectOpen (some _) => d.objectOpen
  | .objectClose => d.objectClose
  | .referenceOpen none => d.referenceOpenElement
  | .referenceOpen (some _) => d.referenceOpen
  | .reference _ => d.reference
  | .referenceClose => d.referenceClose
  | .repeatOpen _ .object _ => d.repeatObjectOpen
  | .repeatOpen _ .array _ => d.repeatNestedOpen
  | .repeatClose .object => d.repeatObjectClose
  | .repeatClose .array => d.repeatNestedClose
  | .repeatFragment .. => d.repeatFragment
  | .repeatMatcher .. => d.repeatMatcher
  | .arrayOpen => d.arrayOpen
  | .arrayClose => d.arrayClose
  | .emptyArray none => d.emptyArray
  | .emptyArray (some _) => d.repeatEmpty
  | .scalar .. => d.call

/-- The placeholders of the templates that open inner scopes. -/
def openingPlaceholders (key : Option String) (bounds : Option ArrayBounds) :
    List (String × String) :=
  [("key", (key.map Text.quote).getD ""), ("var", scopes.current),
    ("child", d.builderVar scopes.allocated)] ++
    (bounds.map boundValues).getD [("min", ""), ("examples", "")]

/-- The placeholders that the template of a statement knows, with their values. -/
def placeholders : Statement → List (String × String)
  | .rootOpen name | .rootEmptyArray name | .fragmentOpen name =>
    [("name", name), ("var", d.builderVar scopes.allocated)]
  | .rootClose | .fragmentClose => [("var", scopes.current)]
  | .rootArrayOpen name _ bounds =>
    [("name", name), ("var", d.builderVar scopes.allocated),
      ("child", d.builderVar (scopes.allocated + 1))] ++ boundValues bounds
  | .rootArrayClose _ => [("child", scopes.current)]
  | .rootArrayMatcher name m bounds =>
    [("name", name), ("var", d.builderVar scopes.allocated)] ++ d.callValues none m ++
      boundValues bounds
  | .objectOpen key | .referenceOpen key => d.openingPlaceholders scopes key none
  | .repeatOpen key _ bounds => d.openingPlaceholders scopes (some key) (some bounds)
  | .arrayOpen => d.openingPlaceholders scopes none none
  | .objectClose | .referenceClose | .repeatClose _ | .arrayClose =>
    [("var", scopes.enclosing), ("child", scopes.current)]
  | .reference name => [("name", name), ("var", scopes.current)]
  | .repeatFragment key name bounds =>
    [("key", Text.quote key), ("name", name), ("var", scopes.current),
      ("child", d.builderVar scopes.allocated)] ++ boundValues bounds
  | .repeatMatcher key m bounds =>
    [("key", Text.quote key), ("var", scopes.current)] ++ d.callValues none m ++
      boundValues bounds
  | .emptyArray none => [("var", scopes.current), ("child", d.builderVar scopes.allocated)]
  | .emptyArray (some key) =>
    [("key", Text.quote key), ("var", scopes.current), ("child", d.builderVar scopes.allocated)]
  | .scalar key m => [("var", scopes.current)] ++ d.callValues key m

/-- The levels of indentation that a statement which opens or closes a scope adds or takes away. -/
def levels : Statement → ℕ
  | .fragmentOpen _ | .fragmentClose => d.fragmentIndent.toNat
  | _ => 1

/-- The depth at which a statement is written: closings stand at the depth of their openings. -/
def lineDepth (x : Statement) : ℕ :=
  if x.isClosing then scopes.depth - d.levels x else scopes.depth

/-- Every statement is its template, filled with its placeholders. -/
theorem statementLines_eq (x : Statement) : d.statementLines scopes x =
    d.lines (d.lineDepth scopes x) (d.template x) (d.placeholders scopes x) := by
  cases x with
  | rootArrayOpen name nesting bounds => cases nesting <;> rfl
  | rootArrayClose nesting => cases nesting <;> rfl
  | objectOpen key => cases key <;> rfl
  | referenceOpen key => cases key <;> rfl
  | repeatOpen key nesting bounds => cases nesting <;> rfl
  | repeatClose nesting => cases nesting <;> rfl
  | emptyArray key => cases key <;> rfl
  | _ => rfl

/-! ## Scopes -/

/-- The variable of the scope that an opening opens: the last of those it takes. -/
def boundVar (opening : Statement) : String :=
  d.builderVar (scopes.allocated + opening.variables - 1)

variable {d scopes}

theorem levels_of_closer? {opening closing : Statement} (h : opening.closer? = some closing) :
    d.levels closing = d.levels opening := by
  cases opening with
  | rootOpen _ | rootArrayOpen _ _ _ | fragmentOpen _ | objectOpen _ | referenceOpen _
  | repeatOpen _ _ _ | arrayOpen =>
    obtain rfl := Option.some.inj h
    rfl
  | _ => cases h

theorem variables_of_isClosing {x : Statement} (h : x.isClosing = true) : x.variables = 0 := by
  cases x with
  | rootClose | rootArrayClose _ | fragmentClose | objectClose | referenceClose | repeatClose _
  | arrayClose => rfl
  | _ => cases h

/-- An opening takes its variables and enters a scope with the last of them. -/
theorem scopesAfter_opening {x : Statement} (h : x.closer?.isSome = true) :
    d.scopesAfter scopes x =
      (scopes.allocate x.variables).enter (d.boundVar scopes x) (d.levels x) := by
  cases x with
  | rootOpen _ | rootArrayOpen _ _ _ | fragmentOpen _ | objectOpen _ | referenceOpen _
  | repeatOpen _ _ _ | arrayOpen => rfl
  | _ => cases h

theorem scopesAfter_closing {x : Statement} (h : x.isClosing = true) :
    d.scopesAfter scopes x = scopes.leave (d.levels x) := by
  cases x with
  | rootClose | rootArrayClose _ | fragmentClose | objectClose | referenceClose | repeatClose _
  | arrayClose => rfl
  | _ => cases h

/-- All other statements only take variables. -/
theorem scopesAfter_single {x : Statement} (hcloser : x.closer? = none)
    (hclosing : x.isClosing = false) :
    d.scopesAfter scopes x = scopes.allocate x.variables := by
  cases x with
  | rootArrayMatcher _ _ _ | rootEmptyArray _ | reference _ | repeatFragment _ _ _
  | repeatMatcher _ _ _ | emptyArray _ | scalar _ _ => rfl
  | rootClose | rootArrayClose _ | fragmentClose | objectClose | referenceClose | repeatClose _
  | arrayClose => cases hclosing
  | _ => cases hcloser

theorem allocated_scopesAfter (x : Statement) :
    (d.scopesAfter scopes x).allocated = scopes.allocated + x.variables := by
  cases x <;> rfl

variable (d scopes)

/-- The scopes after statements that follow each other. -/
def scopesFrom (s : List Statement) : Scopes := s.foldl d.scopesAfter scopes

@[simp] theorem scopesFrom_nil : d.scopesFrom scopes [] = scopes := rfl

@[simp] theorem scopesFrom_cons (x : Statement) (s : List Statement) :
    d.scopesFrom scopes (x :: s) = d.scopesFrom (d.scopesAfter scopes x) s := rfl

@[simp] theorem scopesFrom_append (s t : List Statement) :
    d.scopesFrom scopes (s ++ t) = d.scopesFrom (d.scopesFrom scopes s) t :=
  List.foldl_append

/-- Statements that follow others are written in the scopes that these leave. -/
theorem renderFrom_append (s t : List Statement) : d.renderFrom scopes (s ++ t) =
    d.renderFrom scopes s ++ d.renderFrom (d.scopesFrom scopes s) t := by
  induction s generalizing scopes with
  | nil => rfl
  | cons x s ih =>
    rw [List.cons_append, renderFrom, renderFrom, ih, scopesFrom_cons, List.append_assoc]

end Dialect
end ContractDraft

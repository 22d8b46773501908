import ContractDraft.Generator.Config
import ContractDraft.Proofs.Json.Position

/-!
# Drafted values, case by case

The drafter's equations in the form proofs use them: one for each kind of value, and for objects one
for each answer of the plan. Nothing else unfolds the drafter.
-/

namespace ContractDraft

namespace Value

/-- The kind of scope that the statements of a value stand around, if they stand around any. -/
def nesting? : Value → Option Nesting
  | .object _ => some .object
  | .array _ => some .array
  | _ => none

/-- Scalars are the values that are not nested. -/
theorem nesting?_eq_none_iff {v : Value} : v.nesting? = none ↔ v.isScalar = true := by
  cases v <;> simp [nesting?, isScalar]

end Value

namespace Drafter

/-- The statements of the value at `path`, which a field holds under a key or which is an item of an
array. -/
def statements (d : Drafter) : Option String → Path → Value → List Statement
  | some key, path, v => d.member key path v
  | none, path, v => d.element path v

/-- What the statements of an object or an array stand around. -/
def contents (d : Drafter) (path : Path) : Value → List Statement
  | .object fields => d.fields path fields
  | .array items => d.firstItem path items
  | _ => []

/-! ## Objects -/

section objects

variable {d : Drafter} {path : Path}

/-- An object with a fragment is a reference to it. -/
theorem statements_object_of_some {name : String} (h : d.plan.nameAt? path = some name)
    (key : Option String) (fields : Fields) :
    d.statements key path (.object fields) = referenceTo key name := by
  cases key with
  | none => rw [statements, element, h]
  | some key => rw [statements, member, h]

/-- An object without a fragment stands between its brackets. -/
theorem statements_object_of_none (h : d.plan.nameAt? path = none) (key : Option String)
    (fields : Fields) :
    d.statements key path (.object fields) =
      .objectOpen key :: d.contents path (.object fields) ++ [.objectClose] := by
  cases key with
  | none => rw [statements, element, h, contents]
  | some key => rw [statements, member, h, contents]

/-- An array whose first object has a fragment repeats that fragment. -/
theorem statements_objects_of_some {name : String} (h : d.plan.nameAt? path.element = some name)
    (key : String) (fields : Fields) (rest : List Value) :
    d.statements (some key) path (.array (.object fields :: rest)) =
      [.repeatFragment key name d.bounds] := by
  rw [statements, member, h]

/-- An array whose first object has no fragment repeats the fields of that object. -/
theorem statements_objects_of_none (h : d.plan.nameAt? path.element = none) (key : String)
    (fields : Fields) (rest : List Value) :
    d.statements (some key) path (.array (.object fields :: rest)) =
      .repeatOpen key .object d.bounds :: d.contents path.element (.object fields) ++
        [.repeatClose .object] := by
  rw [statements, member, h, contents]

end objects

variable (d : Drafter)

theorem contents_object_nil (path : Path) : d.contents path (.object []) = [] := by
  rw [contents, fields]

/-- The fields of an object are written one after the other. -/
theorem contents_object_cons (path : Path) (field : String × Value) (rest : Fields) :
    d.contents path (.object (field :: rest)) =
      d.statements (some field.1) (path.child field.1) field.2 ++
        d.contents path (.object rest) := by
  rw [contents, fields, statements, contents]

/-! ## Arrays -/

/-- An array without items says only that it is one. -/
theorem statements_empty (key : Option String) (path : Path) :
    d.statements key path (.array []) = [.emptyArray key] := by
  cases key with
  | none => rw [statements, element]
  | some key => rw [statements, member]

/-- Inside an array, another array is its first item between brackets. -/
theorem statements_item_array (path : Path) (first : Value) (rest : List Value) :
    d.statements none path (.array (first :: rest)) =
      .arrayOpen :: d.contents path (.array (first :: rest)) ++ [.arrayClose] := by
  rw [statements, element, contents, firstItem]

/-- An array of arrays repeats the contents of its first item. -/
theorem statements_arrays (key : String) (path : Path) (inner rest : List Value) :
    d.statements (some key) path (.array (.array inner :: rest)) =
      .repeatOpen key .array d.bounds :: d.contents path.element (.array inner) ++
        [.repeatClose .array] := by
  rw [statements, member, contents]

/-- An array of arrays, or of objects without a fragment, repeats the contents of its first item. -/
theorem statements_nested {path : Path} {first : Value} {nesting : Nesting}
    (hname : d.plan.nameAt? path.element = none) (h : first.nesting? = some nesting) (key : String)
    (rest : List Value) :
    d.statements (some key) path (.array (first :: rest)) =
      .repeatOpen key nesting d.bounds :: d.contents path.element first ++
        [.repeatClose nesting] := by
  cases first with
  | object fields =>
    cases h
    exact statements_objects_of_none hname key fields rest
  | array inner =>
    cases h
    exact d.statements_arrays key path inner rest
  | _ => cases h

theorem contents_array_nil (path : Path) : d.contents path (.array []) = [] := by
  rw [contents, firstItem]

/-- Of the items of an array only the first is written. -/
theorem contents_array_cons (path : Path) (first : Value) (rest : List Value) :
    d.contents path (.array (first :: rest)) = d.statements none path.element first := by
  rw [contents, firstItem, statements]

/-! ## Scalars -/

/-- A scalar is one matcher. -/
theorem statements_scalar {v : Value} (h : v.isScalar = true) (key : Option String) (path : Path) :
    d.statements key path v = [.scalar key (d.matcher key v)] := by
  cases key with
  | none =>
    cases v with
    | array items => cases h
    | object fields => cases h
    | _ => rw [statements, element]; all_goals simp
  | some key =>
    cases v with
    | array items => cases h
    | object fields => cases h
    | _ => rw [statements, member]; all_goals simp

theorem contents_scalar {v : Value} (h : v.isScalar = true) (path : Path) :
    d.contents path v = [] := by
  cases v with
  | array items => cases h
  | object fields => cases h
  | _ => rfl

/-- An array of scalars repeats the matcher of its first item. -/
theorem statements_scalars {v : Value} (h : v.isScalar = true) (key : String) (path : Path)
    (rest : List Value) :
    d.statements (some key) path (.array (v :: rest)) =
      [.repeatMatcher key (d.matcher none v) d.bounds] := by
  cases v with
  | array items => cases h
  | object fields => cases h
  | _ => rw [statements, member]; all_goals simp

/-! ## Documents -/

theorem rootStatements_object (fields : Fields) : d.rootStatements (.object fields) =
    .rootOpen d.rootName :: d.contents .root (.object fields) ++ [.rootClose] := by
  rw [rootStatements, contents]

theorem rootStatements_empty : d.rootStatements (.array []) = [.rootEmptyArray d.rootName] := by
  rw [rootStatements]

/-- A document that is an array of objects repeats the fields of the first. -/
theorem rootStatements_objects (fields : Fields) (rest : List Value) :
    d.rootStatements (.array (.object fields :: rest)) =
      .rootArrayOpen d.rootName .object d.bounds :: d.contents Path.root.element (.object fields) ++
        [.rootArrayClose .object] := by
  rw [rootStatements, contents]

/-- A document that is an array of arrays repeats the contents of the first. -/
theorem rootStatements_arrays (inner rest : List Value) :
    d.rootStatements (.array (.array inner :: rest)) =
      .rootArrayOpen d.rootName .array d.bounds :: d.contents Path.root.element (.array inner) ++
        [.rootArrayClose .array] := by
  rw [rootStatements, contents]

/-- A document that is an array of arrays or objects repeats the contents of the first. -/
theorem rootStatements_nested {first : Value} {nesting : Nesting}
    (h : first.nesting? = some nesting) (rest : List Value) :
    d.rootStatements (.array (first :: rest)) =
      .rootArrayOpen d.rootName nesting d.bounds :: d.contents Path.root.element first ++
        [.rootArrayClose nesting] := by
  cases first with
  | object fields =>
    cases h
    exact d.rootStatements_objects fields rest
  | array inner =>
    cases h
    exact d.rootStatements_arrays inner rest
  | _ => cases h

/-- A document that is a scalar is one matcher without a key. -/
theorem rootStatements_scalar {v : Value} (h : v.isScalar = true) :
    d.rootStatements v = [.rootOpen d.rootName, .scalar none (d.matcher none v), .rootClose] := by
  cases v with
  | array items => cases h
  | object fields => cases h
  | _ => rfl

/-- A document that is an array of scalars repeats the matcher of the first. -/
theorem rootStatements_scalars {v : Value} (h : v.isScalar = true) (rest : List Value) :
    d.rootStatements (.array (v :: rest)) =
      [.rootArrayMatcher d.rootName (d.matcher none v) d.bounds] := by
  cases v with
  | array items => cases h
  | object fields => cases h
  | _ => rfl

/-! ## Fragments -/

/-- The body of a fragment stands between its opening and its closing. -/
theorem statements_fragmentBlock (f : Decision) : (d.fragmentBlock f).statements =
    .fragmentOpen f.name :: d.contents f.path (.object f.fields) ++ [.fragmentClose] := by
  rw [fragmentBlock, contents]

/-! ## Drafts without references -/

/-- The drafter that writes no references. -/
def inline (d : Drafter) : Drafter := { d with plan := .empty }

/-- Without a plan no path has a fragment. -/
theorem inline_nameAt? (d : Drafter) (path : Path) : d.inline.plan.nameAt? path = none := rfl

end Drafter

/-- The draft of a document without fragments. -/
def Config.inlineDraft (config : Config) (document : Value) : Draft :=
  (config.drafter .empty).draft document

/-! ## An example -/

/-- A document with two objects of one structure, of which the second is the item of an array. -/
def Value.order : Value :=
  let party (name town : String) (zip : Int64) : Value :=
    .object [("name", .string name),
      ("place", .object [("town", .string town), ("zip", .integer zip)])]
  .object [("billing", party "Ada" "Rome" 1), ("delivery", .array [party "Bob" "Bern" 2])]

theorem Value.order_distinctKeys : Value.order.DistinctKeys := by
  have hparty (name town : String) (zip : Int64) :
      (Value.object [("name", .string name),
        ("place", .object [("town", .string town), ("zip", .integer zip)])]).DistinctKeys :=
    .pair (by decide) (.scalar rfl) (.pair (by decide) (.scalar rfl) (.scalar rfl))
  have hdelivery := hparty "Bob" "Bern" 2
  exact .pair (by decide) (hparty "Ada" "Rome" 1) (.array (by simpa using hdelivery))

/-- The configuration in which every object of two fields becomes a fragment. -/
def Config.small (sharing : Bool) : Config where
  fragments := { minFields := 1, reuseIdentical := sharing }

end ContractDraft

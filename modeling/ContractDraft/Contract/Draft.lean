import ContractDraft.Contract.Statement
import ContractDraft.Fragment.Plan

/-!
# Contract drafts

The statements that a document calls for under a plan. Objects for which the plan has a fragment are
written as references; of every array only the first item is described.
-/

namespace ContractDraft

/-- The statements of a whole contract: fragments in the order of the plan, then the document. -/
structure Draft where
  fragments : List Block
  root : Block
  deriving DecidableEq

/-- What statements depend on besides the document. -/
structure Drafter where
  policy : Policy
  rootName : String
  /-- The bounds of every repeating array. -/
  bounds : ArrayBounds
  plan : Plan

namespace Drafter

/-- The matcher of a scalar. A value that no rule accepts is matched by its kind, without an
example. -/
def matcher (d : Drafter) (key : Option String) (v : Value) : Matcher :=
  match d.policy.shape? ⟨v, key⟩ with
  | some shape => ⟨shape, Literal.ofValue? v⟩
  | none => ⟨Policy.fallback v, none⟩

/-- A reference to a fragment in place of an object. -/
def referenceTo (key : Option String) (name : String) : List Statement :=
  [.referenceOpen key, .reference name, .referenceClose]

mutual

/-- The statements of the fields of the object at `path`. -/
def fields (d : Drafter) (path : Path) : List (String × Value) → List Statement
  | [] => []
  | (key, v) :: rest => d.member key (path.child key) v ++ d.fields path rest
termination_by structural fs => fs

/-- The statements of the value at `path`, which a field holds under `key`. -/
def member (d : Drafter) (key : String) (path : Path) : Value → List Statement
  | .object fs =>
    match d.plan.nameAt? path with
    | some name => referenceTo (some key) name
    | none => .objectOpen (some key) :: d.fields path fs ++ [.objectClose]
  | .array [] => [.emptyArray (some key)]
  | .array (.object fs :: _) =>
    match d.plan.nameAt? path.element with
    | some name => [.repeatFragment key name d.bounds]
    | none =>
      .repeatOpen key .object d.bounds :: d.fields path.element fs ++ [.repeatClose .object]
  | .array (.array inner :: _) =>
    .repeatOpen key .array d.bounds :: d.firstItem path.element inner ++ [.repeatClose .array]
  | .array (v :: _) => [.repeatMatcher key (d.matcher none v) d.bounds]
  | v => [.scalar (some key) (d.matcher (some key) v)]
termination_by structural v => v

/-- The statements of the value at `path`, which is an item of an array. -/
def element (d : Drafter) (path : Path) : Value → List Statement
  | .object fs =>
    match d.plan.nameAt? path with
    | some name => referenceTo none name
    | none => .objectOpen none :: d.fields path fs ++ [.objectClose]
  | .array [] => [.emptyArray none]
  | .array (first :: _) => .arrayOpen :: d.element path.element first ++ [.arrayClose]
  | v => [.scalar none (d.matcher none v)]
termination_by structural v => v

/-- The statements of the first item of the array at `path`, if it has one. -/
def firstItem (d : Drafter) (path : Path) : List Value → List Statement
  | [] => []
  | first :: _ => d.element path.element first
termination_by structural items => items

end

/-- The statements of the document. The first item of a document that is an array stands in for the
document and is never a reference. -/
def rootStatements (d : Drafter) : Value → List Statement
  | .object fs => .rootOpen d.rootName :: d.fields .root fs ++ [.rootClose]
  | .array [] => [.rootEmptyArray d.rootName]
  | .array (.object fs :: _) =>
    .rootArrayOpen d.rootName .object d.bounds :: d.fields Path.root.element fs ++
      [.rootArrayClose .object]
  | .array (.array inner :: _) =>
    .rootArrayOpen d.rootName .array d.bounds :: d.firstItem Path.root.element inner ++
      [.rootArrayClose .array]
  | .array (v :: _) => [.rootArrayMatcher d.rootName (d.matcher none v) d.bounds]
  | v => [.rootOpen d.rootName, .scalar none (d.matcher none v), .rootClose]

/-- The block of a planned fragment. -/
def fragmentBlock (d : Drafter) (decision : Decision) : Block where
  name := decision.name
  path := some decision.path
  statements :=
    .fragmentOpen decision.name :: d.fields decision.path decision.fields ++ [.fragmentClose]

/-- The block of the document. -/
def rootBlock (d : Drafter) (document : Value) : Block where
  name := d.rootName
  path := none
  statements := d.rootStatements document

/-- The draft for a document. -/
def draft (d : Drafter) (document : Value) : Draft where
  fragments := d.plan.fragments.map d.fragmentBlock
  root := d.rootBlock document

end Drafter
end ContractDraft

import ContractDraft.Contract.Draft

/-!
# Notices

What a run reports about the choices it made: decisions on fragments, arrays whose items are of
several kinds, and values that no rule accepts. The notices of a draft follow its statements.
-/

namespace ContractDraft

/-- How much a notice matters. -/
inductive Level where
  | debug
  | info
  | warn
  deriving DecidableEq, Repr

/-- The name of a level. -/
def Level.name : Level → String
  | .debug => "DEBUG"
  | .info => "INFO"
  | .warn => "WARN"

/-- Something that a run reports. -/
inductive Notice where
  /-- An object shares the fragment of an earlier one. -/
  | fragmentReused (path : Path) (name : String)
  /-- An object becomes a fragment. -/
  | fragmentExtracted (path : Path) (name : String) (fields : Nat)
  /-- The plan is made. -/
  | planComplete (fragments : Nat)
  /-- Fewer examples were asked for than an array must have items. -/
  | examplesRaised (bounds : ArrayBounds)
  /-- An array has items of several kinds. -/
  | mixedArray (first : Kind) (index : Nat) (found : Kind)
  /-- No rule accepts a scalar. -/
  | unclassified (path : Path) (reason : Unclassified)
  /-- The document is a scalar. -/
  | scalarRoot (kind : Kind)
  /-- The contract is written. -/
  | generated (dialect : String) (fragments lines : Nat)
  deriving DecidableEq

namespace Notice

/-- How much a notice matters. -/
def level : Notice → Level
  | .fragmentReused .. | .fragmentExtracted .. | .planComplete .. | .mixedArray .. => .debug
  | .generated .. => .info
  | .examplesRaised .. | .unclassified .. | .scalarRoot .. => .warn

/-- The wording of a notice. -/
def message : Notice → String
  | .fragmentReused .. => "reusing identical fragment"
  | .fragmentExtracted .. => "extracting fragment"
  | .planComplete .. => "fragment plan complete"
  | .examplesRaised .. => "array example count raised to the minimum length"
  | .mixedArray .. => "heterogeneous array, sampling first element"
  | .unclassified .. => "falling back to a type-only matcher"
  | .scalarRoot .. => "document root is a scalar; emitting a single keyless matcher"
  | .generated .. => "generated contract DSL"

/-- What a notice is about, as named texts. -/
def details : Notice → List (String × String)
  | .fragmentReused path name => [("path", path.text), ("fragment", name)]
  | .fragmentExtracted path name fields =>
    [("path", path.text), ("fragment", name), ("fields", toString fields)]
  | .planComplete fragments => [("fragments", toString fragments)]
  | .examplesRaised bounds => [("min_len", toString bounds.minLen),
      ("requested", toString bounds.examples), ("examples", toString bounds.normalized.examples)]
  | .mixedArray first index found =>
    [("first", first.name), ("index", toString index), ("found", found.name)]
  | .unclassified path reason => [("path", path.text), ("error", reason.message)]
  | .scalarRoot kind => [("kind", kind.name)]
  | .generated dialect fragments lines =>
    [("dialect", dialect), ("fragments", toString fragments), ("lines", toString lines)]

/-- A notice on one line: its level, its wording, and what it is about. -/
def text (notice : Notice) : String :=
  notice.level.name ++ " " ++ notice.message ++
    String.join (notice.details.map fun (name, value) => " " ++ name ++ "=" ++ value)

end Notice

/-- The notice of one decision. -/
def Decision.notice (d : Decision) : Notice :=
  match d.origin with
  | .extracted => .fragmentExtracted d.path d.name d.fields.length
  | .reused => .fragmentReused d.path d.name

/-- The notices of making a plan. -/
def Plan.notices (plan : Plan) : List Notice :=
  plan.decisions.map (·.notice) ++ [.planComplete plan.fragments.length]

/-- The notice of an array whose items are of several kinds. -/
def mixedNotices : List Value → List Notice
  | [] => []
  | first :: rest =>
    match firstDeviation? (first :: rest) with
    | some (index, found) => [.mixedArray first.kind index found]
    | none => []

namespace Drafter

/-- The notice of a scalar that no rule accepts. -/
def matcherNotices (d : Drafter) (key : Option String) (path : Path) (v : Value) : List Notice :=
  match d.policy.classify ⟨v, key⟩ with
  | .ok _ => []
  | .error reason => [.unclassified path reason]

mutual

/-- The notices of the fields of the object at `path`. -/
def fieldNotices (d : Drafter) (path : Path) : List (String × Value) → List Notice
  | [] => []
  | (key, v) :: rest => d.memberNotices key (path.child key) v ++ d.fieldNotices path rest
termination_by structural fs => fs

/-- The notices of the value at `path`, which a field holds under `key`. -/
def memberNotices (d : Drafter) (key : String) (path : Path) : Value → List Notice
  | .object fs => if (d.plan.nameAt? path).isSome then [] else d.fieldNotices path fs
  | .array [] => []
  | .array (.object fs :: rest) =>
    mixedNotices (.object fs :: rest) ++
      if (d.plan.nameAt? path.element).isSome then [] else d.fieldNotices path.element fs
  | .array (.array inner :: rest) =>
    mixedNotices (.array inner :: rest) ++ d.firstItemNotices path.element inner
  | .array (v :: rest) => mixedNotices (v :: rest) ++ d.matcherNotices none path.element v
  | v => d.matcherNotices (some key) path v
termination_by structural v => v

/-- The notices of the value at `path`, which is an item of an array. -/
def elementNotices (d : Drafter) (path : Path) : Value → List Notice
  | .object fs => if (d.plan.nameAt? path).isSome then [] else d.fieldNotices path fs
  | .array [] => []
  | .array (first :: _) => d.elementNotices path.element first
  | v => d.matcherNotices none path v
termination_by structural v => v

/-- The notices of the first item of the array at `path`, if it has one. -/
def firstItemNotices (d : Drafter) (path : Path) : List Value → List Notice
  | [] => []
  | first :: _ => d.elementNotices path.element first
termination_by structural items => items

end

/-- The notices of the document's own statements. -/
def rootNotices (d : Drafter) : Value → List Notice
  | .object fs => d.fieldNotices .root fs
  | .array [] => []
  | .array (.object fs :: rest) =>
    mixedNotices (.object fs :: rest) ++ d.fieldNotices Path.root.element fs
  | .array (.array inner :: rest) =>
    mixedNotices (.array inner :: rest) ++ d.firstItemNotices Path.root.element inner
  | .array (v :: rest) =>
    mixedNotices (v :: rest) ++ d.matcherNotices none Path.root.element v
  | v => .scalarRoot v.kind :: d.matcherNotices none .root v

/-- The notices of a whole draft, block by block. -/
def notices (d : Drafter) (document : Value) : List Notice :=
  (d.plan.fragments.flatMap fun decision => d.fieldNotices decision.path decision.fields) ++
    d.rootNotices document

end Drafter
end ContractDraft

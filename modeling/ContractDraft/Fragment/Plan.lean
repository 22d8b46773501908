import ContractDraft.Fragment.Path
import ContractDraft.Fragment.Register
import ContractDraft.Shape.Signature

/-!
# Fragment plans

Which nested objects of a document become fragments of their own. The document is walked once, every
object before its fields; each decision is recorded with the path it was made at. What later
decisions look at is kept beside the record: the names that are taken, and the structures that
already have a fragment.
-/

namespace ContractDraft

/-- When objects become fragments. -/
structure FragmentOptions where
  /-- Whether there are fragments at all. -/
  enabled : Bool := true
  /-- An object needs more fields than this. -/
  minFields : UInt64 := 2
  /-- Objects with more steps to them than this stay inline. -/
  maxDepth : UInt64 := 32
  /-- Whether objects of one structure share a fragment. -/
  reuseIdentical : Bool := false
  deriving DecidableEq, Repr

/-- Whether an object got a fragment of its own or the fragment of an earlier object. -/
inductive Origin where
  | extracted
  | reused
  deriving DecidableEq, Repr

/-- An object that is written as a reference to a fragment. -/
structure Decision where
  path : Path
  name : String
  fields : Fields
  origin : Origin

/-- The objects of a document that are written as references, in the order of the walk. -/
structure Plan where
  decisions : List Decision

/-- What decisions depend on besides the document. -/
structure Planner where
  options : FragmentOptions
  policy : Policy
  rootName : String

/-- What a walk has come to. -/
structure Progress where
  /-- The decisions made so far. -/
  decisions : List Decision
  register : Register
  /-- The signatures of the objects that may be shared, each with the name of its fragment. -/
  signatures : List (String × String)

namespace Progress

/-- The walk at its beginning. -/
def start (rootName : String) : Progress := ⟨[], .start rootName, []⟩

/-- The name of an earlier fragment that has the structure of this object. -/
def shared? (progress : Progress) (planner : Planner) (fields : Fields) : Option String :=
  if planner.options.reuseIdentical then
    progress.signatures.lookup (signature planner.policy (.object fields))
  else none

/-- Decides that the object at `path` shares the fragment called `name`. -/
def share (progress : Progress) (path : Path) (name : String) (fields : Fields) : Progress :=
  { progress with decisions := progress.decisions ++ [⟨path, name, fields, .reused⟩] }

/-- Decides that the object at `path` becomes a fragment with a name after `hint`. -/
def extract (progress : Progress) (planner : Planner) (path : Path) (hint : String)
    (fields : Fields) : Progress :=
  let (name, register) := progress.register.allocate hint
  { decisions := progress.decisions ++ [⟨path, name, fields, .extracted⟩]
    register := register
    signatures :=
      if planner.options.reuseIdentical then
        progress.signatures ++ [(signature planner.policy (.object fields), name)]
      else progress.signatures }

end Progress

namespace Planner

/-- Whether an object that is `depth` steps below the root is large and near enough to be
extracted. -/
def extracts (planner : Planner) (depth : Nat) (fields : Fields) : Bool :=
  depth ≤ planner.options.maxDepth.toNat && planner.options.minFields.toNat < fields.length

mutual

/-- Visits the value at `path`, which is `depth` steps below the root and would like to be called
`hint`. Inside an object that shares an earlier fragment nothing is left to decide. -/
def visit (planner : Planner) (path : Path) (hint : String) (depth : Nat) :
    Value → Progress → Progress
  | .object fields, progress =>
    if !path.isDocument && planner.extracts depth fields then
      match progress.shared? planner fields with
      | some name => progress.share path name fields
      | none => visitFields planner path depth fields (progress.extract planner path hint fields)
    else visitFields planner path depth fields progress
  | .array (first :: _), progress =>
    visit planner path.element (Name.ofItem hint) (depth + 1) first progress
  | _, progress => progress
termination_by structural v => v

/-- Visits the fields of the object at `path`. -/
def visitFields (planner : Planner) (path : Path) (depth : Nat) :
    List (String × Value) → Progress → Progress
  | [], progress => progress
  | (key, v) :: rest, progress =>
    visitFields planner path depth rest
      (visit planner (path.child key) (Name.lowerCamelCase key) (depth + 1) v progress)
termination_by structural fields => fields

end

/-- The plan for a document. -/
def plan (planner : Planner) (document : Value) : Plan :=
  ⟨if planner.options.enabled then
      (planner.visit .root (Name.lowerCamelCase planner.rootName) 0 document
        (.start planner.rootName)).decisions
    else []⟩

end Planner

namespace Plan

/-- The plan that keeps everything inline. -/
def empty : Plan := ⟨[]⟩

/-- The decisions that made new fragments, in the order of the walk. -/
def fragments (plan : Plan) : List Decision :=
  plan.decisions.filter fun d => d.origin = .extracted

/-- The name of the fragment that stands for the object at `path`. -/
def nameAt? (plan : Plan) (path : Path) : Option String :=
  (plan.decisions.find? fun d => d.path = path).map (·.name)

end Plan
end ContractDraft

/-!
# Paths

The position of a node in a document: the keys and array items that lead to it from the root. The
last step stands first, so that going deeper is adding a step in front.
-/

namespace ContractDraft

/-- A step from a value to one inside it. Of an array only the first item is ever visited. -/
inductive Step where
  | key (name : String)
  | item
  deriving DecidableEq, Repr

/-- The steps to a node, innermost first. -/
abbrev Path := List Step

namespace Path

/-- The path of the document itself. -/
def root : Path := []

/-- The path of a field's value. -/
def child (path : Path) (key : String) : Path := .key key :: path

/-- The path of the first item. -/
def element (path : Path) : Path := .item :: path

/-- The path of the value that holds the node; the root stays where it is. -/
def parent (path : Path) : Path := path.tail

/-- The steps from the root on. -/
def segments (path : Path) : List Step := path.reverse

/-- The document, or the first item of a document that is an array: it stands in for the
document. -/
def isDocument : Path → Bool
  | [] | [.item] => true
  | _ => false

/-- The text of one step. -/
def stepText : Step → String
  | .key name => "." ++ name
  | .item => "[0]"

/-- The text of a path, such as `$.order.items[0]`. -/
def text (path : Path) : String :=
  "$" ++ String.join (path.segments.map stepText)

end Path
end ContractDraft

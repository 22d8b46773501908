import ContractDraft.Contract.Notice
import ContractDraft.Dialect.Builtin
import ContractDraft.Json.Reader

/-!
# Configurations

Everything that a run depends on besides the document.
-/

namespace ContractDraft

/-- Everything that a run depends on besides the document. -/
structure Config where
  reading : ReadOptions := {}
  fragments : FragmentOptions := {}
  arrays : ArrayBounds := {}
  /-- The name of the document's own block. -/
  rootName : String := "body"
  dialect : Dialect := .classic
  policy : Policy := .standard

namespace Config

/-- What decisions on fragments depend on. -/
def planner (config : Config) : Planner where
  options := config.fragments
  policy := config.policy
  rootName := config.rootName

/-- What statements depend on, for a plan. -/
def drafter (config : Config) (plan : Plan) : Drafter where
  policy := config.policy
  rootName := config.rootName
  bounds := config.arrays.normalized
  plan := plan

/-- The draft for a document. -/
def draft (config : Config) (document : Value) : Draft :=
  (config.drafter (config.planner.plan document)).draft document

end Config
end ContractDraft

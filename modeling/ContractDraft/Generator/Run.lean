import ContractDraft.Dialect.Rendering
import ContractDraft.Generator.Config

/-!
# Runs

From the text of a document to the lines of a contract: the document is read, its fragments are
planned, the draft is made, and its blocks are rendered.
-/

namespace ContractDraft

/-- The lines of a fragment. -/
structure Fragment where
  name : String
  path : Path
  lines : List String
  deriving DecidableEq, Repr

/-- The lines of a contract. -/
structure Generated where
  /-- The fragments, in the order of the plan. -/
  fragments : List Fragment
  /-- The document's own lines. -/
  root : List String
  deriving DecidableEq, Repr

namespace Generated

/-- All lines in the order of writing: an empty line stands behind every fragment. -/
def lines (g : Generated) : List String :=
  (g.fragments.flatMap fun fragment => fragment.lines ++ [""]) ++ g.root

/-- The first fragment of a name. -/
def fragment? (g : Generated) (name : String) : Option Fragment :=
  g.fragments.find? fun fragment => fragment.name = name

end Generated

namespace Config

/-- The contract for a document. -/
def generateValue (config : Config) (document : Value) : Generated :=
  let draft := config.draft document
  { fragments := draft.fragments.map fun block =>
      ⟨block.name, block.path.getD .root, config.dialect.render block⟩
    root := config.dialect.render draft.root }

/-- The contract for the text of a document. -/
def generate (config : Config) (text : String) : Except ReadError Generated :=
  (readDocument config.reading text).map config.generateValue

/-- The notice that a contract has been written. -/
def generatedNotice (config : Config) (g : Generated) : Notice :=
  .generated config.dialect.name g.fragments.length
    (g.root.length + (g.fragments.flatMap fun fragment => fragment.lines).length)

/-- All notices of the run for a document, in order. -/
def notices (config : Config) (document : Value) : List Notice :=
  let plan := config.planner.plan document
  let raised :=
    if config.arrays.normalized = config.arrays then [] else [.examplesRaised config.arrays]
  plan.notices ++ raised ++ (config.drafter plan).notices document ++
    [config.generatedNotice (config.generateValue document)]

end Config

/-- The wording of a reading error where a contract was asked for. -/
def ReadError.runMessage (e : ReadError) : String :=
  "malformed JSON: " ++ e.message

end ContractDraft

import ContractDraft.Generator.Run
import ContractDraft.Proofs.Contract.Names
import ContractDraft.Proofs.Fragment.PlainName

/-!
# From blocks to contracts

What holds of the lines of every drafted block holds of all parts of a contract
(`Config.forall_render`). The names in these blocks are the name of the document, which may be
anything, and names of the plan, which are plain (`Config.names_piecewise`).
-/

namespace ContractDraft.Config

variable (config : Config) (document : Value)

/-- The parts of a contract are the lines of the drafted blocks. -/
theorem forall_render {Q : List String → Prop}
    (h : ∀ block ∈ (config.draft document).blocks, Q (config.dialect.render block)) :
    (∀ fragment ∈ (config.generateValue document).fragments, Q fragment.lines) ∧
      Q (config.generateValue document).root := by
  refine ⟨fun fragment hfragment => ?_, h _ (by simp [Draft.blocks])⟩
  obtain ⟨block, hblock, rfl⟩ := List.mem_map.mp hfragment
  exact h block (by simp [Draft.blocks, hblock])

/-- A property of plain text that the name of the document has is one of all names that are
written. -/
theorem names_piecewise {P : List Char → Prop} (hP : Text.Piecewise P)
    (hroot : P config.rootName.toList) {block : Block}
    (hblock : block ∈ (config.draft document).blocks) :
    ∀ x ∈ block.statements, ∀ name, x.name? = some name → P name.toList := by
  intro x hx name hname
  have hmem : name ∈ names block.statements := List.mem_filterMap.mpr ⟨x, hx, hname⟩
  rcases Drafter.exists_of_mem_names hblock hmem with rfl | ⟨e, he, rfl⟩
  · exact hroot
  · exact hP.plain _ (config.planner.plain_name document he)

end ContractDraft.Config

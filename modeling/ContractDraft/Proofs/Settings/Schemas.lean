import ContractDraft.Dialect.Rendering
import ContractDraft.Dialect.Schema
import ContractDraft.Proofs.Settings.Record
import ContractDraft.Settings.Options

/-!
# Dialects and options are read back

Every record type of the settings restores its records: its names are distinct, and its members
together replace every field. So a dialect that was written is read back, whatever its templates and
patterns are made of, and so are the three groups of options (`settings_restored`).
-/

namespace ContractDraft

theorem ReadOptions.restores_schema : ReadOptions.schema.Restores :=
  .of_members (by decide) (by simp [schema]) (by simp [schema])

theorem FragmentOptions.restores_schema : FragmentOptions.schema.Restores :=
  .of_members (by decide) (by simp [schema]) (by simp [schema])

theorem ArrayBounds.restores_schema : ArrayBounds.schema.Restores :=
  .of_members (by decide) (by simp [schema]) (by simp [schema])

theorem MatcherCall.restores_schema : MatcherCall.schema.Restores :=
  .of_members (by decide) (by simp [schema]) (by simp [schema])

theorem MatcherTable.restores_schema : MatcherTable.schema.Restores :=
  .of_members (by decide)
    (by simp [schema, callMember, Member.record_spec MatcherCall.restores_schema])
    (by simp [schema, callMember, Member.record_spec MatcherCall.restores_schema])

theorem Dialect.restores_schema : Dialect.schema.Restores :=
  .of_members (by decide)
    (by simp [schema, Member.record_spec MatcherTable.restores_schema])
    (by simp [schema, Member.record_spec MatcherTable.restores_schema])

/-- Settings that were written are read back. A dialect is the same afterwards, so it renders every
block to the same lines; options are the same in either layout and on top of any others. -/
theorem settings_restored :
    (∀ d : Dialect, Dialect.ofJsonText d.toJsonText = .ok d ∧
      ∀ block : Block, (Dialect.ofJsonText d.toJsonText).map (fun e => e.render block) =
        .ok (d.render block)) ∧
    (∀ o initial : ReadOptions,
      ReadOptions.schema.load initial (ReadOptions.schema.write o).compact = .ok o ∧
      ReadOptions.schema.load initial (ReadOptions.schema.write o).pretty = .ok o) ∧
    (∀ o initial : FragmentOptions,
      FragmentOptions.schema.load initial (FragmentOptions.schema.write o).compact = .ok o ∧
      FragmentOptions.schema.load initial (FragmentOptions.schema.write o).pretty = .ok o) ∧
    (∀ b initial : ArrayBounds,
      ArrayBounds.schema.load initial (ArrayBounds.schema.write b).compact = .ok b ∧
      ArrayBounds.schema.load initial (ArrayBounds.schema.write b).pretty = .ok b) := by
  refine ⟨fun d => ?_, ReadOptions.restores_schema.load_write,
    FragmentOptions.restores_schema.load_write, ArrayBounds.restores_schema.load_write⟩
  have hload : Dialect.ofJsonText d.toJsonText = .ok d :=
    (Dialect.restores_schema.load_write d .classic).2
  refine ⟨hload, fun block => ?_⟩
  rw [hload]
  rfl

end ContractDraft

import ContractDraft.Contract.Statement
import ContractDraft.Fragment.Plan
import ContractDraft.Settings.Record

/-!
# Options as settings

The members of the three groups of options: how documents are read, when objects become fragments,
and the bounds of arrays.
-/

namespace ContractDraft

/-- The members of the reading options. -/
def ReadOptions.schema : RecordSchema ReadOptions := [
  .flag "allow_trailing_commas" (·.allowTrailingCommas)
    fun o v => { o with allowTrailingCommas := v },
  .count "max_depth" (·.maxDepth) fun o v => { o with maxDepth := v }]

/-- The members of the fragment options. -/
def FragmentOptions.schema : RecordSchema FragmentOptions := [
  .flag "enabled" (·.enabled) fun o v => { o with enabled := v },
  .count "min_fields" (·.minFields) fun o v => { o with minFields := v },
  .count "max_depth" (·.maxDepth) fun o v => { o with maxDepth := v },
  .flag "reuse_identical" (·.reuseIdentical) fun o v => { o with reuseIdentical := v }]

/-- The members of array bounds. -/
def ArrayBounds.schema : RecordSchema ArrayBounds := [
  .count "min_len" (·.minLen) fun b v => { b with minLen := v },
  .count "examples" (·.examples) fun b v => { b with examples := v }]

end ContractDraft

import ContractDraft.Dialect.Builtin
import ContractDraft.Dialect.Rendering
import ContractDraft.Proofs.Text.JavaLiteral
import ContractDraft.Proofs.Text.Literal

/-!
# Examples are read back

The text of an example in builder code is a text of documents too, but for the suffix of whole
numbers: read as a document, it is the sample that the example was taken from
(`Dialect.literal_readback`). Documents, builder code and Java agree on how every character of a
string is written (`examples_readback`).
-/

namespace ContractDraft

/-- What stands behind the text of an example. -/
def Dialect.suffix (d : Dialect) : Literal → String
  | .integer _ => d.integerSuffix
  | _ => ""

/-- The text of an example is that of its sample, with the suffix behind it. -/
theorem Dialect.scalarText_literal (d : Dialect) {v : Value} {l : Literal}
    (h : Literal.ofValue? v = some l) :
    ∃ text, d.literal l = text ++ d.suffix l ∧ ScalarText text.toList v := by
  cases v with
  | boolean b =>
    cases h
    cases b
    · exact ⟨"false", rfl, .false⟩
    · exact ⟨"true", rfl, .true⟩
  | integer n =>
    cases h
    exact ⟨toString n.toInt, rfl, scalarText_integer n⟩
  | decimal x =>
    rw [Literal.ofValue?] at h
    split at h
    · rename_i hx
      cases h
      exact ⟨_, String.append_empty.symm, scalarText_format literalDecimals hx⟩
    · cases h
  | string s =>
    rw [Literal.ofValue?] at h
    split at h
    · cases h
    · cases h
      exact ⟨_, String.append_empty.symm, .string (stringText_quote s)⟩
  | _ => cases h

/-- Without its suffix, the text of an example is read as the sample. -/
theorem Dialect.literal_readback (d : Dialect) {v : Value} {l : Literal}
    (h : Literal.ofValue? v = some l) :
    ∃ text, d.literal l = text ++ d.suffix l ∧
      ∀ options, readDocument options text = .ok v := by
  obtain ⟨text, hliteral, htext⟩ := d.scalarText_literal h
  exact ⟨text, hliteral, fun _ => Value.readDocument_of_valueText (Value.valueText_of_scalar htext)⟩

/-- Examples are read back as their samples. The string literal of a text is the one that documents
have for it, stays on one line, and denotes this text in Java. -/
theorem examples_readback :
    (∀ (d : Dialect) (v : Value) (l : Literal), Literal.ofValue? v = some l →
      ∃ text, d.literal l = text ++ d.suffix l ∧ ∀ options, readDocument options text = .ok v) ∧
    ∀ s : String, Text.quote s = (Value.string s).compact ∧
      (∀ c ∈ (Text.quote s).toList, c ≠ '\n' ∧ c ≠ '\r') ∧
      ∀ t, Text.Denotes (Text.quote s) t ↔ t = s := by
  refine ⟨fun d v l h => d.literal_readback h, fun s => ⟨?_, fun c hc => ?_, fun t => ?_⟩⟩
  · rw [Value.compact, writeString_eq_quote]
  · simpa [Text.lineBreaks] using Text.unbroken_quote s c hc
  · exact Text.denotes_quote_iff

/-- The least integer and the least positive number as examples of the chained builder. -/
theorem examples_readback_least :
    let least : Binary64 := .ofParts false 1 0
    Literal.ofValue? (.integer Int64.minValue) = some (.integer Int64.minValue) ∧
      (∃ text, Dialect.classic.literal (.integer Int64.minValue) = text ++ "L" ∧
        ∀ options, readDocument options text = .ok (.integer Int64.minValue)) ∧
      Literal.ofValue? (.decimal least) = some (.decimal least) ∧
      ∃ text, Dialect.classic.literal (.decimal least) = text ++ "" ∧
        ∀ options, readDocument options text = .ok (.decimal least) := by
  intro least
  have hleast : Literal.ofValue? (.decimal least) = some (.decimal least) := by decide +kernel
  exact ⟨rfl, examples_readback.1 Dialect.classic _ _ rfl, hleast,
    examples_readback.1 Dialect.classic _ _ hleast⟩

end ContractDraft

import ContractDraft.Proofs.Json.Position
import ContractDraft.Shape.Signature

/-!
# Lengths of signatures

The signature of a value stands inside the signature of every array and object around it, together
with brackets. So signatures get longer from the inside out, which makes their length a measure for
everything that descends from an object to an object inside it, or to one of the same structure.
-/

namespace ContractDraft

/-- A text is no longer than a join that it takes part in. -/
theorem length_le_length_intercalate (separator : String) {s : String} {texts : List String}
    (h : s ∈ texts) : s.length ≤ (String.intercalate separator texts).length := by
  induction texts with
  | nil => cases h
  | cons t texts ih =>
    rcases eq_or_ne texts [] with rfl | hne
    · have hsame : s = t := List.mem_singleton.mp h
      have hjoin : String.intercalate separator [t] = t := String.intercalate_singleton
      exact Nat.le_of_eq (by rw [hsame, hjoin])
    rw [String.intercalate_cons_of_ne_nil hne, String.length_append, String.length_append]
    rcases List.mem_cons.mp h with rfl | htail
    · omega
    · have := ih htail
      omega

/-- The signature of an object does not depend on the key that holds it. -/
theorem signatureAt_object (policy : Policy) (key : Option String) (fields : Fields) :
    signatureAt policy key (.object fields) = signature policy (.object fields) := by
  rw [signature, signatureAt, signatureAt]

theorem mem_fieldSignatures (policy : Policy) {fields : Fields} {field : String × Value}
    (h : field ∈ fields) :
    Text.diagnosticString field.1 ++ ":" ++ signatureAt policy (some field.1) field.2 ∈
      fieldSignatures policy fields := by
  induction fields with
  | nil => cases h
  | cons head tail ih =>
    rw [fieldSignatures]
    rcases List.mem_cons.mp h with rfl | htail
    · exact List.mem_cons_self ..
    · exact List.mem_cons_of_mem _ (ih htail)

/-- A field has a shorter signature than its object. -/
theorem length_signatureAt_field_lt (policy : Policy) {fields : Fields} {field : String × Value}
    (h : field ∈ fields) :
    (signatureAt policy (some field.1) field.2).length <
      (signature policy (.object fields)).length := by
  have hjoin := length_le_length_intercalate "," (mem_fieldSignatures policy h)
  rw [String.length_append, String.length_append] at hjoin
  rw [signature, signatureAt, String.length_append, String.length_append]
  have hbrace : r"{".length = 1 := rfl
  omega

/-- The first item has a shorter signature than its array. -/
theorem length_signatureAt_item_lt (policy : Policy) (key : Option String) (first : Value)
    (rest : List Value) :
    (signatureAt policy none first).length <
      (signatureAt policy key (.array (first :: rest))).length := by
  rw [signatureAt, String.length_append, String.length_append]
  have hbracket : "[".length = 1 := rfl
  omega

end ContractDraft

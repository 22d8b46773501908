import ContractDraft.Proofs.Json.Position

/-!
# Values that correspond

`Corresponds same` compares two values position by position, as far as a visit sees them: objects
have the same keys in the same order, arrays are both empty or have first items that correspond, and
scalars at one position are related by `same`, which also sees the key that holds them.
-/

namespace ContractDraft

mutual

/-- Two values that are held under `key` have the same keys and nesting, and related scalars. -/
inductive Corresponds (same : Option String → Value → Value → Prop) :
    Option String → Value → Value → Prop where
  | scalar {key : Option String} {v w : Value} : v.isScalar = true → w.isScalar = true →
      same key v w → Corresponds same key v w
  | empty {key : Option String} : Corresponds same key (.array []) (.array [])
  | array {key : Option String} {v w : Value} {rest others : List Value} :
      Corresponds same none v w → Corresponds same key (.array (v :: rest)) (.array (w :: others))
  | object {key : Option String} {fields others : Fields} :
      CorrespondingFields same fields others →
      Corresponds same key (.object fields) (.object others)

/-- Two rows of fields have the same keys, and under each of them values that correspond. -/
inductive CorrespondingFields (same : Option String → Value → Value → Prop) :
    Fields → Fields → Prop where
  | nil : CorrespondingFields same [] []
  | cons {key : String} {v w : Value} {rest others : Fields} :
      Corresponds same (some key) v w → CorrespondingFields same rest others →
      CorrespondingFields same ((key, v) :: rest) ((key, w) :: others)

end

namespace Corresponds

variable {same : Option String → Value → Value → Prop} {key : Option String}

theorem fields {fields others : Fields} (h : Corresponds same key (.object fields) (.object others)) :
    CorrespondingFields same fields others := by
  cases h with
  | scalar hv => cases hv
  | object hfields => exact hfields

theorem item {v w : Value} {rest others : List Value}
    (h : Corresponds same key (.array (v :: rest)) (.array (w :: others))) :
    Corresponds same none v w := by
  cases h with
  | scalar hv => cases hv
  | array hitem => exact hitem

theorem related {v w : Value} (hv : v.isScalar = true) (h : Corresponds same key v w) :
    same key v w := by
  cases h with
  | scalar _ _ hsame => exact hsame
  | _ => cases hv

end Corresponds

theorem CorrespondingFields.value {same : Option String → Value → Value → Prop} {key : String}
    {v w : Value} {rest others : Fields}
    (h : CorrespondingFields same ((key, v) :: rest) ((key, w) :: others)) :
    Corresponds same (some key) v w := by
  cases h with
  | cons hvalue _ => exact hvalue

end ContractDraft

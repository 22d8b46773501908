import ContractDraft.Shape.Policy
import ContractDraft.Text.Diagnostic

/-!
# Signatures

The signature of a value is the text of its structure: keys, nesting and shapes, but no values.
Arrays show their first item only, as in the contract. A question mark stands behind an empty
string, for which no example is written.
-/

namespace ContractDraft

/-- The signature of a scalar. -/
def scalarSignature (policy : Policy) (key : Option String) (v : Value) : String :=
  (policy.classifyOrFallback ⟨v, key⟩).name ++
    match v with
    | .string s => if s.isEmpty then "?" else ""
    | _ => ""

mutual

/-- The signature of a value that is held under `key`. -/
def signatureAt (policy : Policy) (key : Option String) : Value → String
  | .object fields =>
    r"{" ++ String.intercalate "," (fieldSignatures policy fields) ++ r"}"
  | .array [] => "[]"
  | .array (first :: _) => "[" ++ signatureAt policy none first ++ "]"
  | v => scalarSignature policy key v
termination_by structural v => v

/-- The signatures of fields with their keys. -/
def fieldSignatures (policy : Policy) : List (String × Value) → List String
  | [] => []
  | (key, v) :: rest =>
    (Text.diagnosticString key ++ ":" ++ signatureAt policy (some key) v) ::
      fieldSignatures policy rest
termination_by structural fields => fields

end

/-- The signature of a whole document or object. -/
def signature (policy : Policy) (v : Value) : String :=
  signatureAt policy none v

end ContractDraft

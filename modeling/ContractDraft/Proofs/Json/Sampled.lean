import ContractDraft.Proofs.Json.Position

/-!
# Sampled documents

A contract describes an array by its first item. `Value.sampled` cuts every array to this item, at
every depth; keys, nesting and scalars stay as they are.
-/

namespace ContractDraft

mutual

/-- The value with every array inside cut to its first item. -/
def Value.sampled : Value → Value
  | .object fields => .object (sampledFields fields)
  | .array [] => .array []
  | .array (first :: _) => .array [first.sampled]
  | v => v
termination_by structural v => v

/-- The fields with every array inside their values cut to its first item. -/
def sampledFields : List (String × Value) → List (String × Value)
  | [] => []
  | (key, v) :: rest => (key, v.sampled) :: sampledFields rest
termination_by structural fields => fields

end

namespace Value

@[simp] theorem sampled_object (fields : Fields) :
    (Value.object fields).sampled = .object (sampledFields fields) := by
  rw [sampled]

@[simp] theorem sampled_empty : (Value.array []).sampled = .array [] := by
  rw [sampled]

@[simp] theorem sampled_array (first : Value) (rest : List Value) :
    (Value.array (first :: rest)).sampled = .array [first.sampled] := by
  rw [sampled]

theorem sampled_scalar {v : Value} (h : v.isScalar = true) : v.sampled = v := by
  cases v with
  | array items => cases h
  | object fields => cases h
  | _ => rfl

end Value

@[simp] theorem sampledFields_nil : sampledFields [] = [] := by
  rw [sampledFields]

@[simp] theorem sampledFields_cons (field : String × Value) (rest : Fields) :
    sampledFields (field :: rest) = (field.1, field.2.sampled) :: sampledFields rest := by
  rw [sampledFields]

@[simp] theorem length_sampledFields (fields : Fields) :
    (sampledFields fields).length = fields.length := by
  induction fields with
  | nil => rw [sampledFields_nil]
  | cons field rest ih => rw [sampledFields_cons, List.length_cons, ih, List.length_cons]

end ContractDraft

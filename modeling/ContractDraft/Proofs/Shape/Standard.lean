import ContractDraft.Contract.Statement
import ContractDraft.Proofs.Shape.Structure

/-!
# The standard policy

What the rules that apply by default say about each kind of scalar. The key that holds a scalar does
not matter, and the only scalars that no rule accepts are numbers that are not finite
(`Policy.shape?_standard`). Every scalar has an example, unless it is an empty string or its shape
has no examples at all (`Value.isSome_ofValue?`).
-/

namespace ContractDraft

namespace Policy

/-- The first rule decides, if it accepts. -/
theorem shape?_cons (rule : Rule) (rules : List Rule) (sample : Sample) :
    shape? ⟨rule :: rules⟩ sample = (rule.test sample).or (shape? ⟨rules⟩ sample) := by
  rw [shape?, List.findSome?_cons]
  cases rule.test sample <;> rfl

theorem shape?_ofForm_cons (name : String) (form : List Char → Bool) (shape : Shape)
    (rules : List Rule) (s : String) (key : Option String) :
    shape? ⟨.ofForm name form shape :: rules⟩ ⟨.string s, key⟩ =
      if form s.toList then some shape else shape? ⟨rules⟩ ⟨.string s, key⟩ := by
  by_cases h : form s.toList = true <;> simp [shape?_cons, Rule.ofForm, h]

end Policy

/-! ## Standard shapes -/

/-- The standard shape of a string: that of the first form that it has. -/
def Shape.ofString (s : String) : Shape :=
  if StringForm.isEnumToken s.toList then .enumString
  else if StringForm.isEmail s.toList then .emailString
  else if StringForm.isUuid s.toList then .uuid
  else if StringForm.isDateTime s.toList then .dateTime
  else if StringForm.isDate s.toList then .date
  else .freeString

/-- The standard shape of a scalar. -/
def Value.standardShape : Value → Shape
  | .null => .null
  | .boolean _ => .boolean
  | .integer _ => .integer
  | .decimal x => if x.isFinite then .decimal else .number
  | .string s => .ofString s
  | _ => .number

/-- The scalars that the standard policy accepts. -/
def Value.isFinite : Value → Bool
  | .decimal x => x.isFinite
  | v => v.isScalar

theorem Shape.isString_ofString (s : String) : (ofString s).isString = true := by
  unfold ofString
  repeat' split
  all_goals rfl

namespace Policy

theorem shape?_standard_string (key : Option String) (s : String) :
    standard.shape? ⟨.string s, key⟩ = some (.ofString s) := by
  rw [standard]
  simp only [shape?_ofForm_cons, Shape.ofString, apply_ite some]
  rfl

theorem shape?_standard_decimal (key : Option String) (x : Binary64) :
    standard.shape? ⟨.decimal x, key⟩ = if x.isFinite then some .decimal else none := by
  cases h : x.isFinite <;>
    simp [standard, shape?, Rule.ofForm, Rule.ofKind, Rule.finiteDecimal, Value.kind, h]

/-- The standard policy accepts all scalars but numbers that are not finite. -/
theorem shape?_standard {v : Value} (h : v.isScalar = true) (key : Option String) :
    standard.shape? ⟨v, key⟩ = if v.isFinite then some v.standardShape else none := by
  cases v with
  | array items => cases h
  | object fields => cases h
  | string s => exact shape?_standard_string key s
  | decimal x =>
    rw [shape?_standard_decimal, Value.isFinite, Value.standardShape]
    cases x.isFinite <;> rfl
  | _ => rfl

/-- What it does not accept has the shape that is left for it. -/
theorem classifyOrFallback_standard {v : Value} (h : v.isScalar = true) (key : Option String) :
    standard.classifyOrFallback ⟨v, key⟩ = v.standardShape := by
  rw [classifyOrFallback, shape?_standard h]
  cases v with
  | array items => cases h
  | object fields => cases h
  | decimal x =>
    rw [Value.isFinite, Value.standardShape]
    cases x.isFinite <;> rfl
  | _ => rfl

end Policy

/-! ## Shapes and examples -/

/-- The shapes that matchers show examples of. -/
def Shape.hasExamples : Shape → Bool
  | .null | .number => false
  | _ => true

theorem Shape.hasExamples_of_isString {s : Shape} : s.isString = true → s.hasExamples = true := by
  cases s <;> decide

/-- The shape of a scalar and the mark of empty strings tell whether there is an example. -/
theorem Value.isSome_ofValue? {v : Value} (h : v.isScalar = true) :
    (Literal.ofValue? v).isSome = (v.standardShape.hasExamples && !v.isEmptyString) := by
  cases v with
  | array items => cases h
  | object fields => cases h
  | string s =>
    rw [standardShape, Shape.hasExamples_of_isString (Shape.isString_ofString s), isEmptyString,
      Literal.ofValue?]
    cases s.isEmpty <;> rfl
  | decimal x =>
    simp only [standardShape, isEmptyString, Literal.ofValue?]
    cases x.isFinite <;> rfl
  | _ => rfl

/-- Conversely, an empty string is a scalar of the shape of a string without an example. -/
theorem Value.isEmptyString_eq {v : Value} (h : v.isScalar = true) :
    v.isEmptyString = (v.standardShape.isString && !(Literal.ofValue? v).isSome) := by
  rw [isSome_ofValue? h]
  cases v with
  | array items => cases h
  | object fields => cases h
  | string s =>
    have hstring := Shape.isString_ofString s
    rw [standardShape, hstring, Shape.hasExamples_of_isString hstring]
    simp
  | decimal x =>
    simp only [standardShape, isEmptyString]
    cases x.isFinite <;> rfl
  | _ => rfl

end ContractDraft

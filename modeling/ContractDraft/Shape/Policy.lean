import ContractDraft.Json.Value
import ContractDraft.Number.DecimalStyle
import ContractDraft.Shape.Basic
import ContractDraft.Shape.StringForm

/-!
# Classification policies

A policy is a list of rules; the first rule that accepts a sample decides its shape. A value that no
rule accepts still has a shape that depends on its kind alone.
-/

namespace ContractDraft

/-- What a rule looks at: a value, and the key of the field that holds it. Items of arrays and whole
documents have no key. -/
structure Sample where
  value : Value
  key : Option String := none

/-- A named rule of a policy. -/
structure Rule where
  name : String
  test : Sample → Option Shape

/-- An ordered list of rules. -/
structure Policy where
  rules : List Rule

/-- Why no rule accepts a value. -/
inductive Rejection where
  | outsideDecimalRange (x : Binary64)
  | structural
  | noRule
  deriving DecidableEq

/-- A value that no rule accepts. -/
structure Unclassified where
  key : Option String
  kind : Kind
  reason : Rejection
  deriving DecidableEq

/-- The name of an infinity in messages. -/
def Rejection.numberName : Binary64 → String
  | .real false _ => "inf"
  | .real true _ => "-inf"
  | .nan => "NaN"

/-- The wording of a rejection. -/
def Rejection.message : Rejection → String
  | .outsideDecimalRange x => numberName x ++ " is outside the decimal range"
  | .structural => "structural values are not classified"
  | .noRule => "no classification rule accepted it"

/-- The wording of an unclassified value. -/
def Unclassified.message (u : Unclassified) : String :=
  "no matcher shape for " ++ u.kind.name ++ " value: " ++ u.reason.message

namespace Rule

/-- A rule that accepts strings of one form. -/
def ofForm (name : String) (form : List Char → Bool) (shape : Shape) : Rule where
  name := name
  test sample := match sample.value with
    | .string s => if form s.toList then some shape else none
    | _ => none

/-- A rule that accepts all values of one kind. -/
def ofKind (name : String) (kind : Kind) (shape : Shape) : Rule where
  name := name
  test sample := if sample.value.kind = kind then some shape else none

/-- The rule for finite numbers that are not 64-bit integers. -/
def finiteDecimal : Rule where
  name := "decimal"
  test sample := match sample.value with
    | .decimal x => if x.isFinite then some .decimal else none
    | _ => none

end Rule

namespace Policy

/-- The rules that apply unless a caller says otherwise: the forms of strings, from the narrowest to
any string, then the other kinds of scalars. -/
def standard : Policy where
  rules := [
    .ofForm "enum" StringForm.isEnumToken .enumString,
    .ofForm "email" StringForm.isEmail .emailString,
    .ofForm "uuid" StringForm.isUuid .uuid,
    .ofForm "date-time" StringForm.isDateTime .dateTime,
    .ofForm "date" StringForm.isDate .date,
    .ofKind "string" .string .freeString,
    .ofKind "integer" .integer .integer,
    .finiteDecimal,
    .ofKind "boolean" .boolean .boolean,
    .ofKind "null" .null .null]

/-- The policy without rules. -/
def empty : Policy := ⟨[]⟩

/-- Adds a rule behind all others. -/
def push (policy : Policy) (rule : Rule) : Policy :=
  ⟨policy.rules ++ [rule]⟩

/-- Adds a rule before all others. -/
def prepend (policy : Policy) (rule : Rule) : Policy :=
  ⟨rule :: policy.rules⟩

/-- Drops every rule of the given name. -/
def without (policy : Policy) (name : String) : Policy :=
  ⟨policy.rules.filter fun rule => rule.name ≠ name⟩

/-- The names of the rules, in order. -/
def ruleNames (policy : Policy) : List String :=
  policy.rules.map (·.name)

/-- The shape that the first accepting rule gives a sample. -/
def shape? (policy : Policy) (sample : Sample) : Option Shape :=
  policy.rules.findSome? fun rule => rule.test sample

/-- Why no rule accepts a value. -/
def rejection : Value → Rejection
  | .decimal x => if x.isFinite then .noRule else .outsideDecimalRange x
  | .array _ | .object _ => .structural
  | _ => .noRule

/-- The shape of a sample, or why it has none. -/
def classify (policy : Policy) (sample : Sample) : Except Unclassified Shape :=
  match policy.shape? sample with
  | some shape => .ok shape
  | none => .error ⟨sample.key, sample.value.kind, rejection sample.value⟩

/-- The shape of a value that no rule accepts. -/
def fallback : Value → Shape
  | .null => .null
  | .boolean _ => .boolean
  | .string _ => .freeString
  | _ => .number

/-- The shape of a sample, by its kind if no rule accepts it. -/
def classifyOrFallback (policy : Policy) (sample : Sample) : Shape :=
  (policy.shape? sample).getD (fallback sample.value)

end Policy

/-- What the first item of an array says about all of them. -/
inductive ItemShape where
  /-- There is no item to learn from. -/
  | empty
  | scalar (shape : Shape)
  | object
  | array
  deriving DecidableEq, Repr

/-- The shape of an array's items, by the first of them. -/
def Policy.itemShape (policy : Policy) : List Value → ItemShape
  | [] => .empty
  | .object _ :: _ => .object
  | .array _ :: _ => .array
  | v :: _ => .scalar (policy.classifyOrFallback ⟨v, none⟩)

/-- The first item of another kind than the first item of all, with its index. -/
def firstDeviation? : List Value → Option (Nat × Kind)
  | [] => none
  | first :: rest =>
    (rest.findIdx? fun v => v.kind ≠ first.kind).bind fun i =>
      rest[i]?.map fun v => (i + 1, v.kind)

end ContractDraft

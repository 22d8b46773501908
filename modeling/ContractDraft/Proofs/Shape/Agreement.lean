import ContractDraft.Proofs.Json.Position
import ContractDraft.Shape.Signature

/-!
# What policies are asked

A policy is only asked about the scalars that a visit of the document reaches, each with the key of
the field that holds it (`Value.samples`). Policies that answer alike there (`Policy.AgreesOn`) give
the value one signature (`Policy.AgreesOn.signatureAt_eq`).
-/

namespace ContractDraft

/-! ## Samples of a value -/

mutual

/-- The scalars inside a value that `key` holds, through fields and first items, each with the key
of the field that holds it directly. -/
def Value.samples (key : Option String) : Value → List Sample
  | .object fields => fieldSamples fields
  | .array [] => []
  | .array (first :: _) => first.samples none
  | v => [⟨v, key⟩]
termination_by structural v => v

/-- The scalars inside the values of fields. -/
def fieldSamples : List (String × Value) → List Sample
  | [] => []
  | (key, v) :: rest => v.samples (some key) ++ fieldSamples rest
termination_by structural fields => fields

end

namespace Value

@[simp] theorem samples_object (key : Option String) (fields : Fields) :
    (Value.object fields).samples key = fieldSamples fields := by
  rw [samples]

@[simp] theorem samples_array (key : Option String) (first : Value) (rest : List Value) :
    (Value.array (first :: rest)).samples key = first.samples none := by
  rw [samples]

/-- A scalar is its only sample. -/
theorem samples_scalar {v : Value} (h : v.isScalar = true) (key : Option String) :
    v.samples key = [⟨v, key⟩] := by
  cases v with
  | array items => cases h
  | object fields => cases h
  | _ => rw [samples]; all_goals simp

end Value

@[simp] theorem fieldSamples_cons (field : String × Value) (rest : Fields) :
    fieldSamples (field :: rest) = field.2.samples (some field.1) ++ fieldSamples rest := by
  rw [fieldSamples]

/-- The samples of a field are among those of all fields. -/
theorem samples_subset_fieldSamples {fields : Fields} {field : String × Value}
    (h : field ∈ fields) : field.2.samples (some field.1) ⊆ fieldSamples fields := by
  induction fields with
  | nil => cases h
  | cons other rest ih =>
    rw [fieldSamples_cons]
    rcases List.mem_cons.mp h with rfl | hrest
    · exact List.subset_append_left ..
    · exact List.Subset.trans (ih hrest) (List.subset_append_right ..)

/-! ## Agreement -/

namespace Policy

/-- Two policies give every one of the samples the same shape, or both reject it. -/
def AgreesOn (P Q : Policy) (samples : List Sample) : Prop :=
  ∀ s ∈ samples, (P.classify s).toOption = (Q.classify s).toOption

variable {P Q : Policy} {samples : List Sample}

/-- Classification succeeds with the shape that the rules find. -/
theorem toOption_classify (P : Policy) (s : Sample) : (P.classify s).toOption = P.shape? s := by
  unfold classify
  cases P.shape? s <;> rfl

/-- Policies agree on samples that they give the same shapes. -/
theorem agreesOn_iff : P.AgreesOn Q samples ↔ ∀ s ∈ samples, P.shape? s = Q.shape? s := by
  simp only [AgreesOn, toOption_classify]

/-- Policies that agree on samples agree on fewer of them. -/
theorem AgreesOn.subset (h : P.AgreesOn Q samples) {fewer : List Sample}
    (hsubset : fewer ⊆ samples) : P.AgreesOn Q fewer :=
  fun s hs => h s (hsubset hs)

/-- Policies that agree on an object agree on each of its fields. -/
theorem AgreesOn.field {fields : Fields} (h : P.AgreesOn Q (fieldSamples fields))
    {field : String × Value} (hmem : field ∈ fields) :
    P.AgreesOn Q (field.2.samples (some field.1)) :=
  h.subset (samples_subset_fieldSamples hmem)

/-- On a scalar they agree as soon as they agree on its samples. -/
theorem AgreesOn.shape?_eq {v : Value} {key : Option String} (hv : v.isScalar = true)
    (h : P.AgreesOn Q (v.samples key)) : P.shape? ⟨v, key⟩ = Q.shape? ⟨v, key⟩ := by
  rw [Value.samples_scalar hv] at h
  exact agreesOn_iff.mp h _ (List.mem_singleton_self _)

/-! ## Signatures -/

theorem scalarSignature_eq {v : Value} {key : Option String}
    (h : P.shape? ⟨v, key⟩ = Q.shape? ⟨v, key⟩) :
    scalarSignature P key v = scalarSignature Q key v := by
  unfold scalarSignature classifyOrFallback
  rw [h]

theorem fieldSignatures_eq {fields : Fields}
    (h : ∀ field ∈ fields,
      signatureAt P (some field.1) field.2 = signatureAt Q (some field.1) field.2) :
    fieldSignatures P fields = fieldSignatures Q fields := by
  induction fields with
  | nil => rw [fieldSignatures, fieldSignatures]
  | cons field rest ih =>
    rw [fieldSignatures, fieldSignatures, h _ (List.mem_cons_self ..),
      ih fun other hmem => h other (List.mem_cons_of_mem _ hmem)]

/-- Policies that agree on all samples of a value give it one signature. -/
theorem AgreesOn.signatureAt_eq (v : Value) : ∀ key : Option String,
    P.AgreesOn Q (v.samples key) → signatureAt P key v = signatureAt Q key v := by
  induction v using Value.visit_induction with
  | object fields ih =>
    intro key h
    rw [Value.samples_object] at h
    have hfields := fieldSignatures_eq fun field hmem => ih field hmem _ (h.field hmem)
    rw [signatureAt, signatureAt, hfields]
  | empty =>
    intro key _
    rw [signatureAt, signatureAt]
  | array first rest ih =>
    intro key h
    rw [Value.samples_array] at h
    rw [signatureAt, signatureAt, ih none h]
  | scalar v hv =>
    intro key h
    have hscalar := scalarSignature_eq (h.shape?_eq hv)
    cases v with
    | array items => cases hv
    | object fields => cases hv
    | _ => rw [signatureAt, signatureAt, hscalar]; all_goals simp

/-- Policies that agree on an object give it the same signature. -/
theorem AgreesOn.signature_eq {fields : Fields} (h : P.AgreesOn Q (fieldSamples fields)) :
    signature P (.object fields) = signature Q (.object fields) :=
  signatureAt_eq (.object fields) none (by rwa [Value.samples_object])

/-! ## Further rules -/

/-- Rules behind all others are not asked about what is already accepted. -/
theorem shape?_foldl_push {s : Sample} {shape : Shape} (rules : List Rule)
    (h : P.shape? s = some shape) : (rules.foldl push P).shape? s = some shape := by
  induction rules generalizing P with
  | nil => exact h
  | cons rule rest ih =>
    have hpush : (P.push rule).shape? s = some shape := by
      unfold shape? at h
      rw [push, shape?, List.findSome?_append, h, Option.some_or]
    exact ih hpush

/-- A policy and the same policy with further rules agree on whatever it accepts. -/
theorem agreesOn_foldl_push (rules : List Rule)
    (h : ∀ s ∈ samples, (P.classify s).isOk = true) : (rules.foldl push P).AgreesOn P samples := by
  refine agreesOn_iff.mpr fun s hs => ?_
  have haccepted := h s hs
  unfold classify at haccepted
  cases hshape : P.shape? s with
  | some shape => exact shape?_foldl_push rules hshape
  | none =>
    rw [hshape] at haccepted
    cases haccepted

end Policy
end ContractDraft

import ContractDraft.Proofs.Fragment.Visit
import ContractDraft.Proofs.Json.Sampled

/-!
# Plans of sampled documents

The planner sees of an array no more than its first item: neither a signature nor a walk goes
further. So the plan of a sampled document is the plan of the document, up to the fields that its
decisions record (`Planner.plan_sampled`).
-/

namespace ContractDraft

/-! ## Signatures -/

section signatures

variable (policy : Policy)

theorem fieldSignatures_sampled {fields : Fields}
    (ih : ∀ field ∈ fields, ∀ key : Option String,
      signatureAt policy key field.2.sampled = signatureAt policy key field.2) :
    fieldSignatures policy (sampledFields fields) = fieldSignatures policy fields := by
  induction fields with
  | nil => rw [sampledFields_nil]
  | cons field rest ihfields =>
    rw [sampledFields_cons, fieldSignatures, fieldSignatures, ih _ (List.mem_cons_self ..),
      ihfields fun other hmem => ih other (List.mem_cons_of_mem _ hmem)]

/-- Sampling does not change signatures. -/
theorem signatureAt_sampled (v : Value) : ∀ key : Option String,
    signatureAt policy key v.sampled = signatureAt policy key v := by
  induction v using Value.visit_induction with
  | object fields ih =>
    intro key
    rw [Value.sampled_object, signatureAt, signatureAt, fieldSignatures_sampled policy ih]
  | empty =>
    intro key
    rw [Value.sampled_empty]
  | array first rest ih =>
    intro key
    rw [Value.sampled_array, signatureAt, signatureAt, ih none]
  | scalar v hv =>
    intro key
    rw [Value.sampled_scalar hv]

theorem signature_sampledFields (fields : Fields) :
    signature policy (.object (sampledFields fields)) = signature policy (.object fields) := by
  rw [← Value.sampled_object]
  exact signatureAt_sampled policy (.object fields) none

end signatures

/-! ## The walk -/

/-- The decision with the fields of its object sampled. -/
def Decision.sampled (d : Decision) : Decision := { d with fields := sampledFields d.fields }

/-- The plan with the objects of its decisions sampled. -/
def Plan.sampled (plan : Plan) : Plan := ⟨plan.decisions.map Decision.sampled⟩

namespace Planner

variable (planner : Planner)

theorem qualifies_sampledFields (path : Path) (fields : Fields) :
    planner.qualifies path (sampledFields fields) = planner.qualifies path fields := by
  rw [qualifies, qualifies, length_sampledFields]

theorem reusable?_sampled (decisions : List Decision) (fields : Fields) :
    planner.reusable? (decisions.map Decision.sampled) (sampledFields fields) =
      planner.reusable? decisions fields := by
  have hsignatures (d : Decision) : signature planner.policy (.object d.sampled.fields) =
      signature planner.policy (.object d.fields) :=
    signature_sampledFields planner.policy d.fields
  simp only [reusable?, List.find?_map, signature_sampledFields, Option.map_map]
  simp only [Function.comp_def, hsignatures]
  rfl

theorem extract_sampled (decisions : List Decision) (path : Path) (fields : Fields) :
    planner.extract (decisions.map Decision.sampled) path (sampledFields fields) =
      (planner.extract decisions path fields).sampled := by
  have htaken : planner.taken (decisions.map Decision.sampled) = planner.taken decisions := by
    rw [taken, taken, List.map_map]
    rfl
  rw [extract, htaken]
  rfl

/-- The walk through a sampled value decides what the walk through the value does. -/
def WalksSampled (v : Value) : Prop :=
  ∀ (path : Path) (decisions : List Decision),
    planner.walk path v.sampled (decisions.map Decision.sampled) =
      (planner.walk path v decisions).map Decision.sampled

variable {planner}

theorem walkFields_sampled {fields : Fields}
    (ih : ∀ field ∈ fields, planner.WalksSampled field.2) (path : Path)
    (decisions : List Decision) :
    planner.walkFields path (sampledFields fields) (decisions.map Decision.sampled) =
      (planner.walkFields path fields decisions).map Decision.sampled := by
  induction fields generalizing decisions with
  | nil => rw [sampledFields_nil, walkFields, walkFields]
  | cons field rest ihfields =>
    rw [sampledFields_cons, walkFields, walkFields, ih _ (List.mem_cons_self ..),
      ihfields fun other hmem => ih other (List.mem_cons_of_mem _ hmem)]

variable (planner)

theorem walksSampled (v : Value) : planner.WalksSampled v := by
  induction v using Value.visit_induction with
  | object fields ih =>
    intro path decisions
    -- Size and signature of the object are the same, so both walks take the same branch.
    rw [Value.sampled_object, walk, walk, qualifies_sampledFields, reusable?_sampled]
    split
    · cases planner.reusable? decisions fields with
      | some name =>
        simp only [List.map_append, List.map_singleton]
        rfl
      | none =>
        have hrest := walkFields_sampled ih path
          (decisions ++ [planner.extract decisions path fields])
        rwa [List.map_append, List.map_singleton, ← extract_sampled] at hrest
    · exact walkFields_sampled ih path decisions
  | empty =>
    intro path decisions
    rw [Value.sampled_empty, walk, walk]
    all_goals simp
  | array first rest ih =>
    intro path decisions
    rw [Value.sampled_array, walk, walk]
    exact ih path.element decisions
  | scalar v hv =>
    intro path decisions
    rw [Value.sampled_scalar hv, walk_scalar hv, walk_scalar hv]

/-- The plan of a sampled document is the plan of the document. -/
theorem plan_sampled (document : Value) :
    planner.plan document.sampled = (planner.plan document).sampled := by
  have hwalk := planner.walksSampled document .root []
  rw [List.map_nil] at hwalk
  rw [plan, plan, Plan.sampled, visit_eq_walk, visit_eq_walk, hwalk]
  split <;> rfl

end Planner

/-! ## What drafts read off a plan -/

namespace Plan

theorem nameAt?_sampled (plan : Plan) (path : Path) :
    plan.sampled.nameAt? path = plan.nameAt? path := by
  rw [nameAt?, nameAt?, sampled, List.find?_map, Option.map_map]
  rfl

theorem fragments_sampled (plan : Plan) :
    plan.sampled.fragments = plan.fragments.map Decision.sampled := by
  rw [fragments, fragments, sampled, List.filter_map]
  rfl

end Plan
end ContractDraft

import ContractDraft.Proofs.Fragment.Plan
import ContractDraft.Proofs.Shape.Agreement

/-!
# Plans under policies that agree

The planner asks its policy for signatures only. So policies that agree on all samples of a document
lead to one plan (`Planner.plan_eq_of_agreesOn`), and what is sampled in the object of a decision is
sampled in the document (`Planner.fieldSamples_subset_of_mem`).
-/

namespace ContractDraft

/-- The planner with another policy. -/
def Planner.withPolicy (planner : Planner) (Q : Policy) : Planner := { planner with policy := Q }

variable {planner : Planner} {Q : Policy}

/-! ## One decision -/

namespace Progress

theorem shared?_withPolicy (progress : Progress) {fields : Fields}
    (h : planner.policy.AgreesOn Q (fieldSamples fields)) :
    progress.shared? (planner.withPolicy Q) fields = progress.shared? planner fields := by
  rw [shared?, shared?, h.signature_eq]
  rfl

theorem extract_withPolicy (progress : Progress) (path : Path) (hint : String) {fields : Fields}
    (h : planner.policy.AgreesOn Q (fieldSamples fields)) :
    progress.extract (planner.withPolicy Q) path hint fields =
      progress.extract planner path hint fields := by
  rw [extract, extract, h.signature_eq]
  rfl

end Progress

namespace Planner

/-! ## The whole visit -/

/-- Wherever the value stands, a policy that agrees on its samples leads through the same visit. -/
def VisitsAlike (planner : Planner) (Q : Policy) (v : Value) : Prop :=
  ∀ (key : Option String) (path : Path) (hint : String) (depth : ℕ) (progress : Progress),
    planner.policy.AgreesOn Q (v.samples key) →
    (planner.withPolicy Q).visit path hint depth v progress =
      planner.visit path hint depth v progress

theorem visitFields_withPolicy {fields : Fields}
    (ih : ∀ field ∈ fields, planner.VisitsAlike Q field.2)
    (h : planner.policy.AgreesOn Q (fieldSamples fields)) (path : Path) (depth : ℕ)
    (progress : Progress) :
    (planner.withPolicy Q).visitFields path depth fields progress =
      planner.visitFields path depth fields progress := by
  induction fields generalizing progress with
  | nil => rw [visitFields, visitFields]
  | cons field rest ihfields =>
    have hfield := h.field (List.mem_cons_self ..)
    have hrest : planner.policy.AgreesOn Q (fieldSamples rest) :=
      h.subset (by rw [fieldSamples_cons]; exact List.subset_append_right ..)
    rw [visitFields, visitFields, ih _ (List.mem_cons_self ..) _ _ _ _ _ hfield,
      ihfields (fun other hmem => ih other (List.mem_cons_of_mem _ hmem)) hrest]

theorem visitsAlike (planner : Planner) (Q : Policy) (v : Value) : planner.VisitsAlike Q v := by
  induction v using Value.visit_induction with
  | object fields ih =>
    intro key path hint depth progress h
    rw [Value.samples_object] at h
    have hextracts : (planner.withPolicy Q).extracts depth fields =
        planner.extracts depth fields := rfl
    simp only [visit, hextracts, progress.shared?_withPolicy h,
      progress.extract_withPolicy path hint h, visitFields_withPolicy ih h]
  | empty =>
    intro key path hint depth progress _
    simp only [visit]
  | array first rest ih =>
    intro key path hint depth progress h
    rw [Value.samples_array] at h
    simp only [visit]
    exact ih none path.element _ _ progress h
  | scalar v hv =>
    intro key path hint depth progress _
    cases v with
    | array items => cases hv
    | object fields => cases hv
    | _ => simp only [visit]

/-- Policies that agree on all samples of a document lead to one plan. -/
theorem plan_eq_of_agreesOn {document : Value}
    (h : planner.policy.AgreesOn Q (document.samples none)) :
    (planner.withPolicy Q).plan document = planner.plan document := by
  have hvisit := planner.visitsAlike Q document none .root
    (Name.lowerCamelCase planner.rootName) 0 (.start planner.rootName) h
  rw [plan, plan]
  exact congrArg (fun progress : Progress =>
    Plan.mk (if planner.options.enabled then progress.decisions else [])) hvisit

/-! ## Samples of decisions -/

/-- What is sampled in values still to be visited and in decided objects is among the given
samples. -/
structure SampledWithin (samples : List Sample) (m : Moment) : Prop where
  pending : ∀ p ∈ m.pending, ∃ key, p.2.samples key ⊆ samples
  decisions : ∀ d ∈ m.decisions, fieldSamples d.fields ⊆ samples

section moves

variable {samples : List Sample} {path : Path} {fields : Fields} {rest : List (Path × Value)}
  {decisions : List Decision}

theorem SampledWithin.fieldSamples_subset
    (h : SampledWithin samples ⟨(path, .object fields) :: rest, decisions⟩) :
    fieldSamples fields ⊆ samples := by
  obtain ⟨key, hkey⟩ := h.pending _ (List.mem_cons_self ..)
  rwa [Value.samples_object] at hkey

theorem SampledWithin.tail {p : Path × Value} (h : SampledWithin samples ⟨p :: rest, decisions⟩) :
    SampledWithin samples ⟨rest, decisions⟩ where
  pending := (List.forall_mem_cons.mp h.pending).2
  decisions := h.decisions

theorem SampledWithin.expand
    (h : SampledWithin samples ⟨(path, .object fields) :: rest, decisions⟩) :
    SampledWithin samples ⟨below path fields ++ rest, decisions⟩ where
  pending := by
    refine List.forall_mem_append.mpr ⟨fun p hp => ?_, h.tail.pending⟩
    obtain ⟨field, hfield, rfl⟩ := List.mem_map.mp hp
    exact ⟨_, List.Subset.trans (samples_subset_fieldSamples hfield) h.fieldSamples_subset⟩
  decisions := h.decisions

theorem SampledWithin.decide {pending : List (Path × Value)}
    (h : SampledWithin samples ⟨pending, decisions⟩) {d : Decision}
    (hd : fieldSamples d.fields ⊆ samples) :
    SampledWithin samples ⟨pending, decisions ++ [d]⟩ where
  pending := h.pending
  decisions := List.forall_mem_append.mpr ⟨h.decisions, List.forall_mem_singleton.mpr hd⟩

theorem SampledWithin.move {m n : Moment} (h : SampledWithin samples m)
    (hmove : planner.Move m n) : SampledWithin samples n := by
  cases hmove with
  | share _ _ => exact h.tail.decide h.fieldSamples_subset
  | extract _ _ => exact h.expand.decide h.fieldSamples_subset
  | inline _ => exact h.expand
  | enter =>
    obtain ⟨key, hkey⟩ := h.pending _ (List.mem_cons_self ..)
    rw [Value.samples_array] at hkey
    exact ⟨List.forall_mem_cons.mpr ⟨⟨none, hkey⟩, h.tail.pending⟩, h.decisions⟩
  | passEmpty => exact h.tail
  | passScalar _ => exact h.tail

end moves

theorem SampledWithin.run {samples : List Sample} {m n : Moment} (h : SampledWithin samples m)
    (hrun : Relation.ReflTransGen planner.Move m n) : SampledWithin samples n := by
  induction hrun with
  | refl => exact h
  | tail _ hmove ih => exact ih.move hmove

/-- What is sampled in the object of a decision is sampled in the document. -/
theorem fieldSamples_subset_of_mem {document : Value} {d : Decision}
    (hd : d ∈ (planner.plan document).decisions) :
    fieldSamples d.fields ⊆ document.samples none := by
  by_cases henabled : planner.options.enabled = true
  · have hstart : SampledWithin (document.samples none) ⟨[(.root, document)], []⟩ :=
      ⟨List.forall_mem_singleton.mpr ⟨none, List.Subset.refl _⟩, by simp⟩
    exact (hstart.run (run_plan henabled document)).decisions d hd
  · rw [plan, if_neg henabled] at hd
    cases hd

end Planner
end ContractDraft

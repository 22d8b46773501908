import ContractDraft.Generator.Run
import ContractDraft.Proofs.Contract.Draft
import ContractDraft.Proofs.Fragment.Agreement

/-!
# Contracts under policies that agree

The answers of the policy to the samples of a document are all that a contract shows of it: policies
that agree on these samples lead to one contract (`Config.generateValue_eq_of_agreesOn`). In
particular, rules behind all others change nothing where every sample is accepted already.
-/

namespace ContractDraft

namespace Drafter

/-! ## Statements of a value -/

/-- The drafter with another policy. -/
def withPolicy (d : Drafter) (Q : Policy) : Drafter := { d with policy := Q }

variable {d : Drafter} {Q : Policy}

/-- On a scalar on which the policies agree they have one matcher. -/
theorem matcher_withPolicy {v : Value} {key : Option String} (hv : v.isScalar = true)
    (h : d.policy.AgreesOn Q (v.samples key)) :
    (d.withPolicy Q).matcher key v = d.matcher key v := by
  have hshape : (d.withPolicy Q).policy.shape? ⟨v, key⟩ = d.policy.shape? ⟨v, key⟩ :=
    (h.shape?_eq hv).symm
  rw [matcher, matcher, hshape]

/-- Wherever the value stands, a policy that agrees on its samples calls for the same statements. -/
structure DraftsAlike (d : Drafter) (Q : Policy) (v : Value) : Prop where
  statements : ∀ key path, d.policy.AgreesOn Q (v.samples key) →
    (d.withPolicy Q).statements key path v = d.statements key path v
  contents : ∀ key path, d.policy.AgreesOn Q (v.samples key) →
    (d.withPolicy Q).contents path v = d.contents path v

theorem contents_fields_withPolicy {fields : Fields}
    (ih : ∀ field ∈ fields, d.DraftsAlike Q field.2)
    (h : d.policy.AgreesOn Q (fieldSamples fields)) (path : Path) :
    (d.withPolicy Q).contents path (.object fields) = d.contents path (.object fields) := by
  induction fields with
  | nil => rw [contents_object_nil, contents_object_nil]
  | cons field rest ihfields =>
    have hfield := h.field (List.mem_cons_self ..)
    have hrest : d.policy.AgreesOn Q (fieldSamples rest) :=
      h.subset (by rw [fieldSamples_cons]; exact List.subset_append_right ..)
    rw [contents_object_cons, contents_object_cons,
      (ih _ (List.mem_cons_self ..)).statements _ _ hfield,
      ihfields (fun other hmem => ih other (List.mem_cons_of_mem _ hmem)) hrest]

theorem statements_object_withPolicy {fields : Fields} {path : Path}
    (h : (d.withPolicy Q).contents path (.object fields) = d.contents path (.object fields))
    (key : Option String) :
    (d.withPolicy Q).statements key path (.object fields) =
      d.statements key path (.object fields) := by
  have hplan : (d.withPolicy Q).plan.nameAt? path = d.plan.nameAt? path := rfl
  cases hname : d.plan.nameAt? path with
  | some name =>
    rw [statements_object_of_some (hplan.trans hname), statements_object_of_some hname]
  | none =>
    rw [statements_object_of_none (hplan.trans hname), statements_object_of_none hname, h]

/-- An array under a key is described by its first item, which is asked about without a key. -/
theorem statements_items_withPolicy {first : Value} (ih : d.DraftsAlike Q first)
    (h : d.policy.AgreesOn Q (first.samples none)) (key : String) (path : Path)
    (rest : List Value) :
    (d.withPolicy Q).statements (some key) path (.array (first :: rest)) =
      d.statements (some key) path (.array (first :: rest)) := by
  have hcontents := ih.contents none path.element h
  have hplan : (d.withPolicy Q).plan.nameAt? path.element = d.plan.nameAt? path.element := rfl
  cases hfirst : first.nesting? with
  | none =>
    have hscalar := Value.nesting?_eq_none_iff.mp hfirst
    rw [statements_scalars _ hscalar, statements_scalars _ hscalar, matcher_withPolicy hscalar h]
    rfl
  | some nesting =>
    cases hname : d.plan.nameAt? path.element with
    | none =>
      rw [statements_nested _ (hplan.trans hname) hfirst, statements_nested _ hname hfirst,
        hcontents]
      rfl
    | some name =>
      -- Only an object can be a reference.
      cases first with
      | object fields =>
        rw [statements_objects_of_some (hplan.trans hname), statements_objects_of_some hname]
        rfl
      | array inner =>
        rw [statements_arrays, statements_arrays, hcontents]
        rfl
      | _ => cases hfirst

theorem draftsAlike (d : Drafter) (Q : Policy) (v : Value) : d.DraftsAlike Q v := by
  induction v using Value.visit_induction with
  | object fields ih =>
    have hcontents (key : Option String) (path : Path)
        (h : d.policy.AgreesOn Q ((Value.object fields).samples key)) :
        (d.withPolicy Q).contents path (.object fields) = d.contents path (.object fields) :=
      contents_fields_withPolicy ih (by rwa [Value.samples_object] at h) path
    exact ⟨fun key path h => statements_object_withPolicy (hcontents key path h) key, hcontents⟩
  | empty =>
    refine ⟨fun key path _ => ?_, fun key path _ => ?_⟩
    · rw [statements_empty, statements_empty]
    · rw [contents_array_nil, contents_array_nil]
  | array first rest ih =>
    have hcontents (key : Option String) (path : Path)
        (h : d.policy.AgreesOn Q ((Value.array (first :: rest)).samples key)) :
        (d.withPolicy Q).contents path (.array (first :: rest)) =
          d.contents path (.array (first :: rest)) := by
      rw [Value.samples_array] at h
      rw [contents_array_cons, contents_array_cons, ih.statements none path.element h]
    refine ⟨fun key path h => ?_, hcontents⟩
    cases key with
    | none => rw [statements_item_array, statements_item_array, hcontents none path h]
    | some key =>
      rw [Value.samples_array] at h
      exact statements_items_withPolicy ih h key path rest
  | scalar v hv =>
    refine ⟨fun key path h => ?_, fun key path _ => ?_⟩
    · rw [statements_scalar _ hv, statements_scalar _ hv, matcher_withPolicy hv h]
    · rw [contents_scalar _ hv, contents_scalar _ hv]

/-! ## Whole drafts -/

theorem rootStatements_withPolicy {document : Value}
    (h : d.policy.AgreesOn Q (document.samples none)) :
    (d.withPolicy Q).rootStatements document = d.rootStatements document := by
  have hcontents := (d.draftsAlike Q document).contents none .root h
  cases document using Value.visit_induction with
  | object fields _ =>
    rw [rootStatements_object, rootStatements_object, hcontents]
    rfl
  | empty =>
    rw [rootStatements_empty, rootStatements_empty]
    rfl
  | array first rest _ =>
    rw [Value.samples_array] at h
    have hitem := (d.draftsAlike Q first).contents none Path.root.element h
    cases hfirst : first.nesting? with
    | some nesting =>
      rw [rootStatements_nested _ hfirst, rootStatements_nested _ hfirst, hitem]
      rfl
    | none =>
      have hscalar := Value.nesting?_eq_none_iff.mp hfirst
      rw [rootStatements_scalars _ hscalar, rootStatements_scalars _ hscalar,
        matcher_withPolicy hscalar h]
      rfl
  | scalar v hv =>
    rw [rootStatements_scalar _ hv, rootStatements_scalar _ hv, matcher_withPolicy hv h]
    rfl

theorem fragmentBlock_withPolicy {f : Decision}
    (h : d.policy.AgreesOn Q (fieldSamples f.fields)) :
    (d.withPolicy Q).fragmentBlock f = d.fragmentBlock f := by
  have hcontents := (d.draftsAlike Q (.object f.fields)).contents none f.path
    (by rwa [Value.samples_object])
  have hstatements : ((d.withPolicy Q).fragmentBlock f).statements =
      (d.fragmentBlock f).statements := by
    rw [statements_fragmentBlock, statements_fragmentBlock, hcontents]
  exact congrArg (Block.mk f.name (some f.path)) hstatements

/-- Policies that agree on a document and on the objects of a plan lead to one draft. -/
theorem draft_withPolicy {document : Value} (h : d.policy.AgreesOn Q (document.samples none))
    (hplan : ∀ f ∈ d.plan.fragments, fieldSamples f.fields ⊆ document.samples none) :
    (d.withPolicy Q).draft document = d.draft document := by
  have hroot : (d.withPolicy Q).rootBlock document = d.rootBlock document :=
    congrArg (Block.mk d.rootName none) (rootStatements_withPolicy h)
  have hfragments : d.plan.fragments.map (d.withPolicy Q).fragmentBlock =
      d.plan.fragments.map d.fragmentBlock :=
    List.map_congr_left fun f hf => fragmentBlock_withPolicy (h.subset (hplan f hf))
  rw [draft, draft, hroot, ← hfragments]
  rfl

end Drafter

namespace Config

/-- The configuration with another policy. -/
def withPolicy (config : Config) (Q : Policy) : Config := { config with policy := Q }

theorem generateValue_withPolicy (config : Config) {Q : Policy} {document : Value}
    (h : config.policy.AgreesOn Q (document.samples none)) :
    (config.withPolicy Q).generateValue document = config.generateValue document := by
  have hplan : (config.withPolicy Q).planner.plan document = config.planner.plan document :=
    config.planner.plan_eq_of_agreesOn h
  have hdraft : (config.withPolicy Q).draft document = config.draft document := by
    rw [draft, hplan]
    refine (config.drafter (config.planner.plan document)).draft_withPolicy h fun f hf => ?_
    exact config.planner.fieldSamples_subset_of_mem (Plan.mem_fragments.mp hf).1
  rw [generateValue, generateValue, hdraft]
  rfl

/-- Two policies that give every sample of a document the same shape, or both reject it, lead to the
same contract, whatever else is configured. So further rules behind all others change nothing for a
document all of whose samples are accepted. -/
theorem generateValue_eq_of_agreesOn (config : Config) (P Q : Policy) (document : Value) :
    (P.AgreesOn Q (document.samples none) →
      { config with policy := P }.generateValue document =
        { config with policy := Q }.generateValue document) ∧
    ∀ rules : List Rule, (∀ s ∈ document.samples none, (P.classify s).isOk = true) →
      { config with policy := rules.foldl Policy.push P }.generateValue document =
        { config with policy := P }.generateValue document := by
  refine ⟨fun h => ?_, fun rules haccepted => ?_⟩
  · exact (generateValue_withPolicy { config with policy := P } h).symm
  · have hagrees := Policy.agreesOn_foldl_push rules haccepted
    exact (generateValue_withPolicy { config with policy := rules.foldl .push P } hagrees).symm

/-- A rule for scalars without a key is never asked where all scalars have one, even below an array,
and as the last rule it is not asked either. -/
theorem generateValue_eq_of_agreesOn_order :
    let keyless : Rule := ⟨"keyless", fun s => if s.key = none then some .freeString else none⟩
    let samples := Value.order.samples none
    Policy.standard.AgreesOn (Policy.standard.prepend keyless) samples ∧
      (∀ s ∈ samples, (Policy.standard.classify s).isOk = true) ∧
      { small true with policy := .standard }.generateValue .order =
        { small true with policy := Policy.standard.prepend keyless }.generateValue .order ∧
      { small true with policy := [keyless].foldl Policy.push .standard }.generateValue .order =
        { small true with policy := .standard }.generateValue .order := by
  intro keyless samples
  have hagrees : Policy.standard.AgreesOn (Policy.standard.prepend keyless) samples := by
    unfold Policy.AgreesOn
    decide +kernel
  have haccepted : ∀ s ∈ samples, (Policy.standard.classify s).isOk = true := by decide +kernel
  have hcontract := (small true).generateValue_eq_of_agreesOn .standard
    (Policy.standard.prepend keyless) .order
  exact ⟨hagrees, haccepted, hcontract.1 hagrees, hcontract.2 [keyless] haccepted⟩

end Config
end ContractDraft

import ContractDraft.Proofs.Contract.References
import ContractDraft.Proofs.Shape.Signature

/-!
# Calls between fragments

A fragment calls the fragments that its body refers to. With shared fragments a call may lead to a
fragment from earlier in the plan, so the order of the plan is no measure for calls. The length of
signatures is one: the body of a fragment refers to objects inside its own object, these have
shorter signatures, and a shared fragment has the signature of every object it stands for.
-/

namespace ContractDraft

/-- The fragment called `caller` refers to the name `callee`. -/
def Draft.Calls (draft : Draft) (caller callee : String) : Prop :=
  ∃ block ∈ draft.fragments, block.name = caller ∧ callee ∈ block.references

namespace Drafter

variable {d : Drafter} {planner : Planner} {document : Value}

/-! ## From a reference to its entry -/

/-- A value refers only to entries of objects in it. -/
theorem exists_entry_of_mem_statements (hsound : d.plan.Sound planner document)
    (hdistinct : document.DistinctKeys) {name : String} (v : Value) :
    ∀ (key : Option String) {path : Path}, document.at? path = some v →
      name ∈ d.referencesAt (path, v) →
      ∃ e ∈ d.plan.decisions, e.name = name ∧ path <:+ e.path ∧
        planner.measure e ≤ (signatureAt planner.policy key v).length := by
  induction v using Value.visit_induction with
  | object fields ih =>
    intro key path hat hname
    rw [signatureAt_object]
    cases hentry : d.plan.nameAt? path with
    | some entry =>
      rw [referencesAt, references_statements_object_of_some d hentry, List.mem_singleton] at hname
      obtain ⟨e, he, rfl, rfl, rfl⟩ := hsound.exists_of_nameAt?_object hat hentry
      exact ⟨e, he, hname.symm, List.suffix_rfl, Nat.le_refl _⟩
    | none =>
      rw [referencesAt, references_statements_object_of_none d hentry,
        references_contents_object] at hname
      obtain ⟨p, hp, hname⟩ := List.mem_flatMap.mp hname
      obtain ⟨field, hfield, rfl⟩ := List.mem_map.mp hp
      have hchild := Value.at?_child hat (hdistinct.at? hat).keys_nodup hfield
      obtain ⟨e, he, hsame, hsuffix, hle⟩ := ih field hfield (some field.1) hchild hname
      have hlt := length_signatureAt_field_lt planner.policy hfield
      exact ⟨e, he, hsame, (path.suffix_child field.1).trans hsuffix, by omega⟩
  | empty =>
    intro key path _ hname
    rw [referencesAt, references_statements_empty] at hname
    cases hname
  | array first rest ih =>
    intro key path hat hname
    rw [referencesAt, references_statements_array] at hname
    obtain ⟨e, he, hsame, hsuffix, hle⟩ := ih none (Value.at?_element hat) hname
    have hlt := length_signatureAt_item_lt planner.policy key first rest
    exact ⟨e, he, hsame, path.suffix_element.trans hsuffix, by omega⟩
  | scalar v h =>
    intro key path _ hname
    rw [referencesAt, references_statements_scalar d h] at hname
    cases hname

/-- The body of an object refers only to entries of objects strictly inside it. -/
theorem exists_entry_of_mem_contents (hsound : d.plan.Sound planner document)
    (hdistinct : document.DistinctKeys) {f : Decision} (hf : f ∈ d.plan.decisions) {name : String}
    (hname : name ∈ references (d.contents f.path (.object f.fields))) :
    ∃ e ∈ d.plan.decisions, e.name = name ∧ f.path <:+ e.path ∧ ¬ e.path <:+ f.path ∧
      planner.measure e < planner.measure f := by
  rw [references_contents_object] at hname
  obtain ⟨p, hp, hname⟩ := List.mem_flatMap.mp hname
  obtain ⟨field, hfield, rfl⟩ := List.mem_map.mp hp
  have hat := hsound.located f hf
  have hchild := Value.at?_child hat (hdistinct.at? hat).keys_nodup hfield
  obtain ⟨e, he, hsame, hsuffix, hle⟩ :=
    exists_entry_of_mem_statements hsound hdistinct field.2 (some field.1) hchild hname
  have hlt := length_signatureAt_field_lt planner.policy hfield
  refine ⟨e, he, hsame, (f.path.suffix_child field.1).trans hsuffix, fun habove => ?_, ?_⟩
  · exact Path.not_child_suffix f.path field.1 (hsuffix.trans habove)
  · rw [Planner.measure, Planner.measure] at *
    omega

/-! ## From a call to a shorter signature -/

theorem exists_fragment_of_calls (hsound : d.plan.Sound planner document)
    (hdistinct : document.DistinctKeys) {caller callee : String}
    (hcall : (d.draft document).Calls caller callee) :
    ∃ f ∈ d.plan.fragments, ∃ g ∈ d.plan.fragments, f.name = caller ∧ g.name = callee ∧
      planner.measure g < planner.measure f := by
  obtain ⟨block, hblock, hcaller, hcallee⟩ := hcall
  obtain ⟨f, hf, rfl⟩ := List.mem_map.mp hblock
  rw [references_fragmentBlock] at hcallee
  obtain ⟨e, he, rfl, _, _, hlt⟩ :=
    exists_entry_of_mem_contents hsound hdistinct (Plan.mem_fragments.mp hf).1 hcallee
  -- The entry may share the fragment of an earlier object, but one of the same signature.
  obtain ⟨g, hg, hname, hsignature⟩ := hsound.exists_fragment he
  refine ⟨f, hf, g, hg, hcaller, hname, ?_⟩
  rwa [Planner.measure, hsignature]

/-- Along a chain of calls signatures get shorter. -/
theorem exists_fragment_of_chain (hsound : d.plan.Sound planner document)
    (hdistinct : document.DistinctKeys) {first last : String}
    (hchain : Relation.TransGen (d.draft document).Calls first last) :
    ∃ f ∈ d.plan.fragments, ∃ g ∈ d.plan.fragments, f.name = first ∧ g.name = last ∧
      planner.measure g < planner.measure f := by
  induction hchain with
  | single hcall => exact exists_fragment_of_calls hsound hdistinct hcall
  | tail _ hcall ih =>
    obtain ⟨f, hf, g, hg, hfirst, hmiddle, hlt⟩ := ih
    obtain ⟨g', hg', k, hk, hmiddle', hlast, hlt'⟩ :=
      exists_fragment_of_calls hsound hdistinct hcall
    -- The fragment in the middle is the same on both sides, because its name has one fragment.
    obtain rfl := hsound.eq_of_name hg hg' (hmiddle.trans hmiddle'.symm)
    exact ⟨f, hf, k, hk, hfirst, hlast, Nat.lt_trans hlt' hlt⟩

/-- Without sharing, the body of a fragment refers only to later fragments. -/
theorem lt_of_mem_references (hsound : d.plan.Sound planner document)
    (hdistinct : document.DistinctKeys) (hoff : planner.options.reuseIdentical = false) {i j : ℕ}
    {f g : Decision} (hf : d.plan.fragments[i]? = some f) (hg : d.plan.fragments[j]? = some g)
    (hname : g.name ∈ references (d.contents f.path (.object f.fields))) : i < j := by
  have hall := hsound.fragments_eq hoff
  have hordered := List.pairwise_iff_getElem.mp hsound.ordered
  rw [← hall] at hordered
  obtain ⟨hi, rfl⟩ := List.getElem?_eq_some_iff.mp hf
  obtain ⟨hj, rfl⟩ := List.getElem?_eq_some_iff.mp hg
  obtain ⟨e, he, hsame, hinside, hstrict, _⟩ :=
    exists_entry_of_mem_contents hsound hdistinct (hall ▸ List.getElem_mem hi) hname
  rw [← hall] at he
  obtain rfl := hsound.eq_of_name he (List.getElem_mem hj) hsame
  -- The entry of an object inside another one is never made before the entry around it.
  rcases Nat.lt_trichotomy i j with hlt | rfl | hgt
  · exact hlt
  · exact absurd List.suffix_rfl hstrict
  · exact absurd hinside (hordered j i hj hi hgt)

end Drafter

/-! ## Calls in the draft of a run -/

/-- No fragment of a draft calls itself, be it directly or through other fragments. Without sharing,
whatever the body of a fragment refers to is a fragment, and one that stands later in the plan. -/
theorem Config.calls_acyclic (config : Config) {document : Value}
    (hdistinct : document.DistinctKeys) :
    (∀ name, ¬ Relation.TransGen (config.draft document).Calls name name) ∧
      (config.fragments.reuseIdentical = false →
        ∀ (i : ℕ) (caller : Block), (config.draft document).fragments[i]? = some caller →
          ∀ name ∈ caller.references,
            (∃ callee ∈ (config.draft document).fragments, callee.name = name) ∧
              ∀ (j : ℕ) (callee : Block), (config.draft document).fragments[j]? = some callee →
                callee.name = name → i < j) := by
  have hsound := config.planner.plan_sound hdistinct
  refine ⟨fun name hchain => ?_, fun hoff i caller hcaller name hname => ?_⟩
  · obtain ⟨f, hf, g, hg, hfirst, hlast, hlt⟩ :=
      Drafter.exists_fragment_of_chain hsound hdistinct hchain
    obtain rfl := hsound.eq_of_name hf hg (hfirst.trans hlast.symm)
    exact absurd hlt (Nat.lt_irrefl _)
  · rw [draft, Drafter.draft, List.getElem?_map] at hcaller
    obtain ⟨f, hf, rfl⟩ := Option.map_eq_some_iff.mp hcaller
    rw [Drafter.references_fragmentBlock] at hname
    obtain ⟨e, he, rfl, _⟩ := Drafter.exists_entry_of_mem_contents hsound hdistinct
      (Plan.mem_fragments.mp (List.mem_of_getElem? hf)).1 hname
    obtain ⟨g, hg, hsame, _⟩ := hsound.exists_fragment he
    refine ⟨⟨_, List.mem_map_of_mem hg, hsame⟩, fun j callee hcallee hcalled => ?_⟩
    rw [draft, Drafter.draft, List.getElem?_map] at hcallee
    obtain ⟨k, hk, rfl⟩ := Option.map_eq_some_iff.mp hcallee
    have hcalled : k.name = e.name := hcalled
    rw [← hcalled] at hname
    exact Drafter.lt_of_mem_references hsound hdistinct hoff hf hk hname

/-- In an order, the fragment of a party calls the fragment of its place, but never itself. Without
sharing, the places that the fragments call stand behind them. -/
theorem Config.calls_order : Value.order.DistinctKeys ∧
    ((Config.small true).draft .order).Calls "billing" "place" ∧
    (∀ name, ¬ Relation.TransGen ((Config.small true).draft .order).Calls name name) ∧
    (Config.small false).fragments.reuseIdentical = false ∧
    ((Config.small false).draft .order).fragments.map (fun b => (b.name, b.references)) =
      [("billing", ["place"]), ("place", []), ("deliveryItem", ["place2"]), ("place2", [])] ∧
    ∀ (i : ℕ) (caller : Block),
      ((Config.small false).draft .order).fragments[i]? = some caller →
        ∀ name ∈ caller.references, ∀ (j : ℕ) (callee : Block),
          ((Config.small false).draft .order).fragments[j]? = some callee →
            callee.name = name → i < j := by
  have hshared := calls_acyclic (Config.small true) Value.order_distinctKeys
  have hseparate := calls_acyclic (Config.small false) Value.order_distinctKeys
  have hcall : ((Config.small true).draft .order).Calls "billing" "place" := by
    unfold Draft.Calls
    decide +kernel
  refine ⟨Value.order_distinctKeys, hcall, hshared.1, rfl, by decide +kernel, ?_⟩
  exact fun i caller hcaller name hname => (hseparate.2 rfl i caller hcaller name hname).2

end ContractDraft

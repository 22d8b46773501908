import ContractDraft.Proofs.Contract.Nesting

/-!
# The names that a draft writes

Every name in the statements of a draft is the name of the document or a name of the plan
(`Drafter.exists_of_mem_names`): the blocks themselves are called so, and references only occur
where the plan has an entry.
-/

namespace ContractDraft

/-- The name of a block or of a fragment that a statement writes. -/
def Statement.name? : Statement → Option String
  | .rootOpen name | .rootArrayOpen name _ _ | .rootArrayMatcher name _ _ | .rootEmptyArray name
  | .fragmentOpen name | .reference name | .repeatFragment _ name _ => some name
  | _ => none

theorem Statement.name?_of_isClosing {x : Statement} (h : x.isClosing = true) :
    x.name? = none := by
  cases x with
  | rootClose | rootArrayClose _ | fragmentClose | objectClose | referenceClose | repeatClose _
  | arrayClose => rfl
  | _ => cases h

/-- The names that statements write, as often as they do. -/
def names (statements : List Statement) : List String :=
  statements.filterMap Statement.name?

/-- Inside a block only references write names. -/
theorem WellNested.names_eq {s : List Statement} (h : WellNested s) : names s = references s := by
  refine List.filterMap_congr fun x hx => ?_
  have houter := h.isOuter_of_mem x hx
  cases x with
  | rootOpen _ | rootArrayOpen _ _ _ | rootArrayMatcher _ _ _ | rootEmptyArray _
  | fragmentOpen _ => cases houter
  | _ => rfl

/-- A whole block around well-nested statements writes one name of its own. -/
theorem WellNested.names_enclosed {opening closing : Statement} {name : String}
    {s : List Statement} (h : WellNested s) (ho : opening.name? = some name)
    (hc : closing.name? = none) :
    names (opening :: s ++ [closing]) = name :: references s := by
  rw [names, List.cons_append, List.filterMap_cons_some ho, List.filterMap_append,
    List.filterMap_cons_none hc, List.filterMap_nil, List.append_nil, ← h.names_eq, names]

namespace Drafter

variable {d : Drafter} {name : String}

/-- A value refers only to names of the plan. -/
theorem exists_decision_of_mem_statements (v : Value) :
    ∀ path : Path, name ∈ d.referencesAt (path, v) → ∃ e ∈ d.plan.decisions, e.name = name := by
  induction v using Value.visit_induction with
  | object fields ih =>
    intro path hname
    cases hentry : d.plan.nameAt? path with
    | some entry =>
      rw [referencesAt, references_statements_object_of_some d hentry, List.mem_singleton] at hname
      obtain ⟨e, he, -, rfl⟩ := Plan.exists_of_nameAt? hentry
      exact ⟨e, he, hname.symm⟩
    | none =>
      rw [referencesAt, references_statements_object_of_none d hentry,
        references_contents_object] at hname
      obtain ⟨p, hp, hname⟩ := List.mem_flatMap.mp hname
      obtain ⟨field, hfield, rfl⟩ := List.mem_map.mp hp
      exact ih field hfield _ hname
  | empty =>
    intro path hname
    rw [referencesAt, references_statements_empty] at hname
    cases hname
  | array first rest ih =>
    intro path hname
    rw [referencesAt, references_statements_array] at hname
    exact ih path.element hname
  | scalar v h =>
    intro path hname
    rw [referencesAt, references_statements_scalar d h] at hname
    cases hname

/-- So does everything that stands inside one. -/
theorem exists_decision_of_mem_contents {path : Path} {v : Value}
    (hname : name ∈ references (d.contents path v)) : ∃ e ∈ d.plan.decisions, e.name = name := by
  cases v using Value.visit_induction with
  | object fields _ =>
    rw [references_contents_object] at hname
    obtain ⟨p, _, hname⟩ := List.mem_flatMap.mp hname
    exact exists_decision_of_mem_statements p.2 p.1 hname
  | empty | array _ _ _ =>
    rw [references_contents_array] at hname
    exact exists_decision_of_mem_statements _ path hname
  | scalar v h =>
    rw [contents_scalar d h] at hname
    cases hname

/-- The document's own statements write the name of the document once. -/
theorem exists_of_mem_names_root {document : Value}
    (hname : name ∈ names (d.rootStatements document)) :
    name = d.rootName ∨ ∃ e ∈ d.plan.decisions, e.name = name := by
  cases document using Value.visit_induction with
  | object fields _ =>
    rw [rootStatements_object, ((d.nests _).contents .root).names_enclosed rfl rfl] at hname
    exact (List.mem_cons.mp hname).imp_right exists_decision_of_mem_contents
  | empty =>
    rw [rootStatements_empty] at hname
    exact .inl (List.mem_singleton.mp hname)
  | array first rest _ =>
    cases hnesting : first.nesting? with
    | some nesting =>
      rw [rootStatements_nested d hnesting, ((d.nests first).contents _).names_enclosed rfl rfl]
        at hname
      exact (List.mem_cons.mp hname).imp_right exists_decision_of_mem_contents
    | none =>
      rw [rootStatements_scalars d (Value.nesting?_eq_none_iff.mp hnesting)] at hname
      exact .inl (List.mem_singleton.mp hname)
  | scalar v hv =>
    rw [rootStatements_scalar d hv] at hname
    exact .inl (List.mem_singleton.mp hname)

/-- Every name in a block is the name of the document or a name of the plan. -/
theorem exists_of_mem_names {document : Value} {block : Block}
    (h : block ∈ (d.draft document).blocks) (hname : name ∈ names block.statements) :
    name = d.rootName ∨ ∃ e ∈ d.plan.decisions, e.name = name := by
  rcases List.mem_append.mp h with hfragment | hroot
  · obtain ⟨f, hf, rfl⟩ := List.mem_map.mp hfragment
    rw [statements_fragmentBlock, ((d.nests _).contents f.path).names_enclosed rfl rfl] at hname
    rcases List.mem_cons.mp hname with rfl | hname
    · exact .inr ⟨f, (Plan.mem_fragments.mp hf).1, rfl⟩
    · exact .inr (exists_decision_of_mem_contents hname)
  · obtain rfl := List.mem_singleton.mp hroot
    exact exists_of_mem_names_root hname

end Drafter
end ContractDraft

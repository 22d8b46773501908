import ContractDraft.Proofs.Contract.References

/-!
# Matchers of a draft

Every matcher in a draft was made for a scalar (`Drafter.drawn_draft`): the statements of a value add
brackets and references to those of its parts, and only the statement of a scalar has a matcher. So
what holds of the matchers of all scalars holds of a whole draft, whatever its plan is.
-/

namespace ContractDraft

/-- The matcher of a statement, if it has one. -/
def Statement.matcher? : Statement → Option Matcher
  | .rootArrayMatcher _ m _ => some m
  | .repeatMatcher _ m _ => some m
  | .scalar _ m => some m
  | _ => none

namespace Drafter

variable {d : Drafter}

/-- The matchers of some statements were made for scalars. -/
def Drawn (d : Drafter) (statements : List Statement) : Prop :=
  ∀ statement ∈ statements, ∀ m ∈ statement.matcher?,
    ∃ (key : Option String) (v : Value), v.isScalar = true ∧ m = d.matcher key v

theorem drawn_of_no_matcher {statements : List Statement}
    (h : ∀ statement ∈ statements, statement.matcher? = none) : d.Drawn statements := by
  intro statement hstatement m hm
  rw [h statement hstatement] at hm
  cases hm

theorem Drawn.append {s t : List Statement} (hs : d.Drawn s) (ht : d.Drawn t) :
    d.Drawn (s ++ t) :=
  List.forall_mem_append.mpr ⟨hs, ht⟩

/-- What opens and closes a scope has no matcher. -/
theorem Drawn.enclosed {opening closing : Statement} {s : List Statement} (h : d.Drawn s)
    (ho : opening.matcher? = none) (hc : closing.matcher? = none) :
    d.Drawn (opening :: s ++ [closing]) := by
  refine Drawn.append (List.forall_mem_cons.mpr ⟨?_, h⟩) (drawn_of_no_matcher (by simpa using hc))
  rw [ho]
  intro m hm
  cases hm

theorem drawn_singleton {statement : Statement} {key : Option String} {v : Value}
    (hv : v.isScalar = true) (h : statement.matcher? = some (d.matcher key v)) :
    d.Drawn [statement] := by
  intro s hs m hm
  obtain rfl := List.mem_singleton.mp hs
  rw [h] at hm
  exact ⟨key, v, hv, (Option.mem_some_iff.mp hm).symm⟩

/-! ## Values -/

theorem drawn_statements_contents (d : Drafter) (v : Value) :
    (∀ key path, d.Drawn (d.statements key path v)) ∧ ∀ path, d.Drawn (d.contents path v) := by
  induction v using Value.visit_induction with
  | object fields ih =>
    have hcontents : ∀ path, d.Drawn (d.contents path (.object fields)) := by
      intro path
      induction fields with
      | nil =>
        rw [contents_object_nil]
        exact drawn_of_no_matcher (by simp)
      | cons field rest ihrest =>
        obtain ⟨hfield, hrest⟩ := List.forall_mem_cons.mp ih
        rw [contents_object_cons]
        exact (hfield.1 _ _).append (ihrest hrest)
    refine ⟨fun key path => ?_, hcontents⟩
    cases hname : d.plan.nameAt? path with
    | some name =>
      rw [statements_object_of_some hname]
      exact drawn_of_no_matcher (by simp [referenceTo, Statement.matcher?])
    | none =>
      rw [statements_object_of_none hname]
      exact (hcontents path).enclosed rfl rfl
  | empty =>
    refine ⟨fun key path => ?_, fun path => ?_⟩
    · rw [statements_empty]
      exact drawn_of_no_matcher (by simp [Statement.matcher?])
    · rw [contents_array_nil]
      exact drawn_of_no_matcher (by simp)
  | array first rest ih =>
    have hcontents : ∀ path, d.Drawn (d.contents path (.array (first :: rest))) := by
      intro path
      rw [contents_array_cons]
      exact ih.1 none path.element
    refine ⟨fun key path => ?_, hcontents⟩
    cases key with
    | none =>
      rw [statements_item_array]
      exact (hcontents path).enclosed rfl rfl
    | some key =>
      cases hnesting : first.nesting? with
      | none =>
        have hscalar := Value.nesting?_eq_none_iff.mp hnesting
        rw [statements_scalars d hscalar]
        exact drawn_singleton hscalar rfl
      | some nesting =>
        cases hname : d.plan.nameAt? path.element with
        | none =>
          rw [statements_nested d hname hnesting]
          exact (ih.2 path.element).enclosed rfl rfl
        | some name =>
          cases first with
          | object fields =>
            rw [statements_objects_of_some hname]
            exact drawn_of_no_matcher (by simp [Statement.matcher?])
          | array inner =>
            rw [statements_arrays]
            exact (ih.2 path.element).enclosed rfl rfl
          | _ => cases hnesting
  | scalar v h =>
    refine ⟨fun key path => ?_, fun path => ?_⟩
    · rw [statements_scalar d h]
      exact drawn_singleton h rfl
    · rw [contents_scalar d h]
      exact drawn_of_no_matcher (by simp)

theorem drawn_rootStatements (d : Drafter) (document : Value) :
    d.Drawn (d.rootStatements document) := by
  have hcontents (v : Value) (path : Path) := (d.drawn_statements_contents v).2 path
  cases document using Value.visit_induction with
  | object fields _ =>
    rw [rootStatements_object]
    exact (hcontents _ _).enclosed rfl rfl
  | empty =>
    rw [rootStatements_empty]
    exact drawn_of_no_matcher (by simp [Statement.matcher?])
  | array first rest _ =>
    cases hnesting : first.nesting? with
    | none =>
      have hscalar := Value.nesting?_eq_none_iff.mp hnesting
      rw [rootStatements_scalars d hscalar]
      exact drawn_singleton hscalar rfl
    | some nesting =>
      rw [rootStatements_nested d hnesting]
      exact (hcontents _ _).enclosed rfl rfl
  | scalar v h =>
    rw [rootStatements_scalar d h]
    have hscalar : d.Drawn [.scalar none (d.matcher none document)] := drawn_singleton h rfl
    exact hscalar.enclosed rfl rfl

/-- The matchers in all blocks of a draft were made for scalars. -/
theorem drawn_draft (d : Drafter) (document : Value) :
    ∀ block ∈ (d.draft document).blocks, d.Drawn block.statements := by
  intro block hblock
  rcases List.mem_append.mp hblock with hfragment | hroot
  · obtain ⟨f, _, rfl⟩ := List.mem_map.mp hfragment
    rw [statements_fragmentBlock]
    exact ((d.drawn_statements_contents _).2 _).enclosed rfl rfl
  · obtain rfl := List.mem_singleton.mp hroot
    exact d.drawn_rootStatements document

end Drafter
end ContractDraft

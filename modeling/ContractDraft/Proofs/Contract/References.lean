import ContractDraft.Proofs.Contract.Content
import ContractDraft.Proofs.Fragment.Plan

/-!
# References of a draft

The names that the statements of a draft refer to. `references_statements_array` and its companions
read them off the drafted value: a value refers to the fragments of the outermost objects in it that
the plan has a name for. Counted along the planning walk, all references of a draft together are the
entries of its plan (`Drafter.references_perm`), which is what ties every reference to one fragment
and every entry to one reference.
-/

namespace ContractDraft

/-! ## References in statements -/

/-- The name of the fragment that a statement refers to. -/
def Statement.target? : Statement → Option String
  | .reference name => some name
  | .repeatFragment _ name _ => some name
  | _ => none

/-- The names that statements refer to, as often as they do. -/
def references (statements : List Statement) : List String :=
  statements.filterMap Statement.target?

@[simp] theorem references_nil : references [] = [] := rfl

@[simp] theorem references_append (s t : List Statement) :
    references (s ++ t) = references s ++ references t :=
  List.filterMap_append ..

/-- What opens and closes a scope refers to nothing itself. -/
theorem references_enclosed {opening closing : Statement} (ho : opening.target? = none)
    (hc : closing.target? = none) (s : List Statement) :
    references (opening :: s ++ [closing]) = references s := by
  rw [references, List.cons_append, List.filterMap_cons_none ho, List.filterMap_append,
    List.filterMap_cons_none hc, List.filterMap_nil, List.append_nil]
  rfl

/-- The name of the fragment, where statements stand for one. -/
def Content.target? : Content → Option String
  | .fragment name => some name
  | .scalar _ => none

/-- The references of statements are read off their content. -/
theorem references_eq_content (statements : List Statement) :
    references statements = (content statements).filterMap Content.target? := by
  have hone : Statement.target? = fun statement => statement.content?.bind Content.target? := by
    funext statement
    cases statement <;> rfl
  rw [content, List.filterMap_filterMap, ← hone, references]

/-- The blocks of a draft in the order of writing. -/
def Draft.blocks (draft : Draft) : List Block := draft.fragments ++ [draft.root]

/-- The names that a block refers to, as often as it does. -/
def Block.references (block : Block) : List String :=
  ContractDraft.references block.statements

/-- The names that the blocks of a draft refer to, as often as they do. -/
def Draft.references (draft : Draft) : List String :=
  draft.blocks.flatMap Block.references

namespace Drafter

variable (d : Drafter)

/-! ## References of drafted values -/

/-- An object with a fragment is one reference. -/
theorem references_statements_object_of_some {path : Path} {name : String}
    (h : d.plan.nameAt? path = some name) (key : Option String) (fields : Fields) :
    references (d.statements key path (.object fields)) = [name] := by
  rw [statements_object_of_some h]
  rfl

/-- An object without a fragment has the references of its fields. -/
theorem references_statements_object_of_none {path : Path} (h : d.plan.nameAt? path = none)
    (key : Option String) (fields : Fields) :
    references (d.statements key path (.object fields)) =
      references (d.contents path (.object fields)) := by
  rw [statements_object_of_none h, references_enclosed rfl rfl]

theorem references_statements_empty (key : Option String) (path : Path) :
    references (d.statements key path (.array [])) = [] := by
  rw [statements_empty]
  rfl

theorem references_statements_scalar {v : Value} (h : v.isScalar = true) (key : Option String)
    (path : Path) : references (d.statements key path v) = [] := by
  rw [statements_scalar d h]
  rfl

/-- Inside an array, an array refers to what its first item refers to. -/
theorem references_contents_array (path : Path) (items : List Value) :
    references (d.contents path (.array items)) =
      references (d.statements none path (.array items)) := by
  rw [references_eq_content, content_contents_array, ← references_eq_content]

/-- An array has the references of its first item. -/
theorem references_statements_array (key : Option String) (path : Path) (first : Value)
    (rest : List Value) : references (d.statements key path (.array (first :: rest))) =
      references (d.statements none path.element first) := by
  rw [references_eq_content, content_statements_array, ← references_eq_content]

/-- What a value refers to does not depend on the key that holds it. -/
theorem references_statements_key (key : Option String) (path : Path) (v : Value) :
    references (d.statements key path v) = references (d.statements none path v) := by
  cases v using Value.visit_induction with
  | object fields _ =>
    cases hname : d.plan.nameAt? path with
    | some name =>
      rw [references_statements_object_of_some d hname,
        references_statements_object_of_some d hname]
    | none =>
      rw [references_statements_object_of_none d hname,
        references_statements_object_of_none d hname]
  | empty => rw [references_statements_empty, references_statements_empty]
  | array first rest _ => rw [references_statements_array, references_statements_array]
  | scalar v h => rw [references_statements_scalar d h, references_statements_scalar d h]

/-- The names that a value refers to from the path it stands at. -/
def referencesAt (p : Path × Value) : List String := references (d.statements none p.1 p.2)

/-- An object around some fields refers to what their values refer to. -/
theorem references_contents_object (path : Path) (fields : Fields) :
    references (d.contents path (.object fields)) =
      (Planner.below path fields).flatMap d.referencesAt := by
  induction fields with
  | nil =>
    rw [contents_object_nil]
    rfl
  | cons field fields ih =>
    rw [contents_object_cons, references_append, references_statements_key, ih]
    rfl

/-! ## Counting along the walk -/

/-- The names that the fragments of some decisions refer to. -/
def ownReferences (decisions : List Decision) : List String :=
  (decisions.filter fun f => f.origin = .extracted).flatMap fun f =>
    references (d.contents f.path (.object f.fields))

/-- A reused fragment has no block and so no references of its own. -/
theorem ownReferences_cons_of_reused {e : Decision} (h : e.origin = .reused)
    (decisions : List Decision) : d.ownReferences (e :: decisions) = d.ownReferences decisions := by
  rw [ownReferences, List.filter_cons_of_neg (by simp [h]), ownReferences]

/-- An extracted fragment has the references of its fields. -/
theorem ownReferences_cons_of_extracted {e : Decision} (h : e.origin = .extracted)
    (decisions : List Decision) : d.ownReferences (e :: decisions) =
      references (d.contents e.path (.object e.fields)) ++ d.ownReferences decisions := by
  rw [ownReferences, List.filter_cons_of_pos (by simp [h]), List.flatMap_cons, ownReferences]

variable {d} {planner : Planner} {document : Value}

/-- An object that the walk passes without a decision has no entry in the plan. -/
theorem nameAt?_of_inline {path : Path} {fields : Fields} {rest : List (Path × Value)}
    {decisions : List Decision} {n : Planner.Moment}
    (hplaced : Planner.Placed document ⟨(path, .object fields) :: rest, decisions⟩)
    (hrun : Relation.ReflTransGen planner.Move
      ⟨Planner.below path fields ++ rest, decisions⟩ n)
    (hplan : n.decisions = d.plan.decisions) : d.plan.nameAt? path = none := by
  refine Plan.nameAt?_eq_none_iff.mpr fun e he hpath => ?_
  rcases Planner.mem_decisions_of_run hrun (hplan ▸ he) with hbefore | ⟨q, hq, hsuffix⟩
  · exact hplaced.pending_ahead _ (List.mem_cons_self ..) e hbefore (hpath ▸ List.suffix_rfl)
  · rw [hpath] at hsuffix
    rcases List.mem_append.mp hq with hbelow | hrest
    · obtain ⟨field, _, rfl⟩ := List.mem_map.mp hbelow
      exact Path.not_child_suffix path field.1 hsuffix
    · exact hplaced.rest_not_suffix q hrest hsuffix

/-- From any moment of the walk on: what is still to be visited refers, together with the fragments
still to be made, to exactly the entries still to be made. -/
theorem references_perm_of_run (hsound : d.plan.Sound planner document)
    (hdistinct : document.DistinctKeys) {m n : Planner.Moment}
    (hrun : Relation.ReflTransGen planner.Move m n) (hplan : n.decisions = d.plan.decisions)
    (hend : n.pending = []) (new : List Decision) (hplaced : Planner.Placed document m)
    (hnew : n.decisions = m.decisions ++ new) :
    (m.pending.flatMap d.referencesAt ++ d.ownReferences new).Perm (new.map (·.name)) := by
  induction hrun using Relation.ReflTransGen.head_induction_on generalizing new with
  | refl =>
    obtain rfl : new = [] := by simpa using hnew
    rw [hend]
    exact .nil
  | head hmove hrest ih =>
    obtain ⟨later, hlater⟩ := Planner.decisions_prefix_of_run hrest
    have hperm := ih later (hplaced.move hdistinct hmove) hlater.symm
    have hsame := hnew.symm.trans hlater.symm
    -- The visited value refers to its own entry, if the move makes one, and else to what it holds.
    cases hmove with
    | @share path fields name rest decisions _ _ =>
      obtain rfl : new = ⟨path, name, fields, .reused⟩ :: later := by simpa using hsame
      have hmem : ⟨path, name, fields, .reused⟩ ∈ d.plan.decisions := by
        rw [← hplan, hnew]
        simp
      have hname : d.plan.nameAt? path = some name := hsound.nameAt?_of_mem hmem
      rw [List.flatMap_cons, referencesAt, references_statements_object_of_some d hname,
        ownReferences_cons_of_reused d rfl]
      exact hperm.cons name
    | @extract path fields rest decisions _ _ =>
      obtain rfl : new = planner.extract decisions path fields :: later := by simpa using hsame
      have hmem : planner.extract decisions path fields ∈ d.plan.decisions := by
        rw [← hplan, hnew]
        simp
      have hname : d.plan.nameAt? path = some (planner.extract decisions path fields).name :=
        hsound.nameAt?_of_mem hmem
      -- The fields are visited next and, by the fragment, referred to once; only the order differs.
      rw [List.flatMap_append, ← references_contents_object, List.append_assoc] at hperm
      rw [List.flatMap_cons, referencesAt, references_statements_object_of_some d hname,
        ownReferences_cons_of_extracted d rfl]
      refine List.Perm.cons _ (List.Perm.trans ?_ hperm)
      exact List.perm_append_comm_assoc ..
    | @inline path fields rest decisions _ =>
      obtain rfl : new = later := by simpa using hsame
      rw [List.flatMap_append, ← references_contents_object] at hperm
      rw [List.flatMap_cons, referencesAt,
        references_statements_object_of_none d (nameAt?_of_inline hplaced hrest hplan)]
      exact hperm
    | enter =>
      obtain rfl : new = later := by simpa using hsame
      rw [List.flatMap_cons, referencesAt, references_statements_array]
      exact hperm
    | passEmpty =>
      obtain rfl : new = later := by simpa using hsame
      rw [List.flatMap_cons, referencesAt, references_statements_empty]
      exact hperm
    | passScalar hscalar =>
      obtain rfl : new = later := by simpa using hsame
      rw [List.flatMap_cons, referencesAt, references_statements_scalar d hscalar]
      exact hperm

/-! ## All references of a draft -/

/-- The document refers to what it would refer to as an item of an array, because neither it nor a
first item that stands in for it is a reference. -/
theorem references_rootStatements (hroot : d.plan.nameAt? .root = none)
    (hitem : d.plan.nameAt? Path.root.element = none) (document : Value) :
    references (d.rootStatements document) = d.referencesAt (.root, document) := by
  rw [referencesAt, references_eq_content, content_rootStatements d hroot hitem,
    ← references_eq_content]

/-- Without entries there are no references. -/
theorem referencesAt_of_empty (hempty : d.plan.decisions = []) (v : Value) :
    ∀ path, d.referencesAt (path, v) = [] := by
  have hnone (path : Path) : d.plan.nameAt? path = none := by
    simp [Plan.nameAt?_eq_none_iff, hempty]
  induction v using Value.visit_induction with
  | object fields ih =>
    intro path
    rw [referencesAt, references_statements_object_of_none d (hnone path),
      references_contents_object]
    refine List.flatMap_eq_nil_iff.mpr fun p hp => ?_
    obtain ⟨field, hfield, rfl⟩ := List.mem_map.mp hp
    exact ih field hfield _
  | empty => exact references_statements_empty d none
  | array first rest ih =>
    intro path
    rw [referencesAt, references_statements_array]
    exact ih path.element
  | scalar v h => exact references_statements_scalar d h none

/-- The body of a fragment refers to what the fields of its object refer to. -/
theorem references_fragmentBlock (f : Decision) :
    (d.fragmentBlock f).references = references (d.contents f.path (.object f.fields)) := by
  rw [Block.references, statements_fragmentBlock, references_enclosed rfl rfl]

/-- All references stand in the blocks of the extracted fragments or in the root block. -/
theorem references_draft (document : Value) : (d.draft document).references =
    d.ownReferences d.plan.decisions ++ references (d.rootStatements document) := by
  rw [Draft.references, Draft.blocks, List.flatMap_append, List.flatMap_singleton, draft,
    List.flatMap_map, ownReferences]
  simp only [references_fragmentBlock]
  rfl

/-- Together, the blocks of a draft refer to exactly the entries of its plan. -/
theorem references_perm (hplan : d.plan = planner.plan document)
    (hdistinct : document.DistinctKeys) :
    (d.draft document).references.Perm (d.plan.decisions.map (·.name)) := by
  have hsound : d.plan.Sound planner document := hplan ▸ planner.plan_sound hdistinct
  rw [references_draft, references_rootStatements (hsound.nameAt?_document rfl)
    (hsound.nameAt?_document rfl) document]
  refine List.perm_append_comm.trans ?_
  by_cases henabled : planner.options.enabled = true
  · have hrun := planner.run_plan henabled document
    rw [← hplan] at hrun
    simpa using references_perm_of_run hsound hdistinct hrun rfl rfl d.plan.decisions
      (Planner.Placed.start document) rfl
  · have hempty : d.plan.decisions = [] := by
      rw [hplan, Planner.plan, if_neg henabled]
    rw [referencesAt_of_empty hempty, hempty]
    exact .nil

end Drafter

/-! ## References in the draft of a run -/

/-- The plan of a run is a table from paths to names, and the references of its draft are, as often
as they occur, the names in this table. So every reference has exactly one fragment, every fragment
has a reference, and without sharing only one. -/
theorem Config.references_eq_entries (config : Config) {document : Value}
    (hdistinct : document.DistinctKeys) :
    let plan := config.planner.plan document
    let draft := config.draft document
    ((plan.decisions.map (·.path)).Nodup ∧
      ∀ path name, plan.nameAt? path = some name ↔
        ∃ d ∈ plan.decisions, d.path = path ∧ d.name = name) ∧
    draft.references.Perm (plan.decisions.map (·.name)) ∧
    (∀ path name, plan.nameAt? path = some name → name ∈ draft.references) ∧
    (∀ name ∈ draft.references, (draft.fragments.map (·.name)).count name = 1) ∧
    (∀ block ∈ draft.fragments, block.name ∈ draft.references) ∧
    (config.fragments.reuseIdentical = false →
      ∀ block ∈ draft.fragments, draft.references.count block.name = 1) := by
  intro plan draft
  have hsound : plan.Sound config.planner document := config.planner.plan_sound hdistinct
  have hperm : draft.references.Perm (plan.decisions.map (·.name)) :=
    Drafter.references_perm rfl hdistinct
  have hfragments : draft.fragments.map (·.name) = plan.fragments.map (·.name) := by
    rw [show draft.fragments = plan.fragments.map (config.drafter plan).fragmentBlock from rfl,
      List.map_map]
    rfl
  have hblock (block : Block) (hmem : block ∈ draft.fragments) :
      block.name ∈ plan.fragments.map (·.name) :=
    hfragments ▸ List.mem_map_of_mem hmem
  refine ⟨⟨hsound.paths_nodup, fun path name => hsound.nameAt?_eq_some_iff⟩, hperm, ?_, ?_, ?_, ?_⟩
  · intro path name hname
    obtain ⟨d, hd, _, rfl⟩ := Plan.exists_of_nameAt? hname
    exact hperm.mem_iff.mpr (List.mem_map_of_mem hd)
  · intro name hname
    obtain ⟨d, hd, rfl⟩ := List.mem_map.mp (hperm.mem_iff.mp hname)
    obtain ⟨f, hf, hsame, _⟩ := hsound.exists_fragment hd
    rw [hfragments, ← hsame]
    exact List.count_eq_one_of_mem hsound.names_nodup (List.mem_map_of_mem hf)
  · intro block hmem
    obtain ⟨f, hf, hsame⟩ := List.mem_map.mp (hblock block hmem)
    rw [hperm.mem_iff, ← hsame]
    exact List.mem_map_of_mem (Plan.mem_fragments.mp hf).1
  · intro hoff block hmem
    rw [hperm.count_eq, ← hsound.fragments_eq hoff]
    exact List.count_eq_one_of_mem hsound.names_nodup (hblock block hmem)

/-- The two parties of an order share one fragment, and are its two references. -/
theorem Config.references_order : Value.order.DistinctKeys ∧
    ((Config.small true).draft .order).fragments.map (·.name) = ["billing", "place"] ∧
    ((Config.small true).draft .order).references.Perm ["billing", "place", "billing"] := by
  have hentries : ((Config.small true).planner.plan .order).decisions.map (·.name) =
      ["billing", "place", "billing"] := by decide +kernel
  have hperm := (references_eq_entries (Config.small true) Value.order_distinctKeys).2.1
  rw [hentries] at hperm
  exact ⟨Value.order_distinctKeys, by decide +kernel, hperm⟩

end ContractDraft

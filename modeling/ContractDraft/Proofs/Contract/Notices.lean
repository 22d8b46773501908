import ContractDraft.Generator.Run
import ContractDraft.Proofs.Contract.Ownership

/-!
# Notices node by node

What a run reports about a document is what it reports about its nodes (`Drafter.nodeNotices`), block
by block and in each block in the order of the document (`Drafter.notices_eq`). The notices of one
wording are then those of the nodes, sorted by the blocks that describe them
(`Config.filter_notices`).
-/

namespace ContractDraft

/-- The key of the field that holds a node. -/
def Path.key? : Path → Option String
  | .key key :: _ => some key
  | _ => none

/-- Whether a node is an item of an array. -/
def Path.isItem : Path → Bool
  | .item :: _ => true
  | _ => false

namespace Drafter

variable (d : Drafter)

/-- What is reported about one node: a scalar that no rule accepts, and items of several kinds if the
array is not itself an item. -/
def nodeNotices : Node → List Notice
  | (_, .object _) => []
  | (path, .array items) => if path.isItem then [] else mixedNotices items
  | (path, v) => d.matcherNotices path.key? path v

/-- The only notice about a scalar is that of its matcher. -/
theorem nodeNotices_scalar {v : Value} (h : v.isScalar = true) (path : Path) :
    d.nodeNotices (path, v) = d.matcherNotices path.key? path v := by
  cases v with
  | array items => cases h
  | object fields => cases h
  | _ => rw [nodeNotices]; all_goals simp

/-- Mixed arrays are reported on the debug level. -/
theorem level_of_mem_mixedNotices {items : List Value} {notice : Notice}
    (h : notice ∈ mixedNotices items) : notice.level = .debug := by
  unfold mixedNotices at h
  split at h
  · cases h
  · split at h
    · rw [List.mem_singleton.mp h]
      rfl
    · cases h

/-! ## Case by case -/

section cases

variable (key : String) (path : Path)

theorem memberNotices_object (fields : Fields) : d.memberNotices key path (.object fields) =
    if d.plan.names path then [] else d.fieldNotices path fields := by
  rw [memberNotices, Plan.names]

theorem elementNotices_object (fields : Fields) : d.elementNotices path (.object fields) =
    if d.plan.names path then [] else d.fieldNotices path fields := by
  rw [elementNotices, Plan.names]

theorem elementNotices_array (items : List Value) :
    d.elementNotices path (.array items) = d.firstItemNotices path items := by
  cases items with
  | nil => rw [elementNotices, firstItemNotices]
  | cons first rest => rw [elementNotices, firstItemNotices]

theorem memberNotices_scalar {v : Value} (h : v.isScalar = true) :
    d.memberNotices key path v = d.matcherNotices (some key) path v := by
  cases v with
  | array items => cases h
  | object fields => cases h
  | _ => rw [memberNotices]; all_goals simp

theorem elementNotices_scalar {v : Value} (h : v.isScalar = true) :
    d.elementNotices path v = d.matcherNotices none path v := by
  cases v with
  | array items => cases h
  | object fields => cases h
  | _ => rw [elementNotices]; all_goals simp

/-- Under a key, the kinds of all items are compared before the first is described. -/
theorem memberNotices_array (items : List Value) : d.memberNotices key path (.array items) =
    mixedNotices items ++ d.firstItemNotices path items := by
  cases items with
  | nil => rw [memberNotices, firstItemNotices, mixedNotices, List.append_nil]
  | cons first rest =>
    rw [firstItemNotices]
    cases first using Value.visit_induction with
    | object fields _ => rw [memberNotices, elementNotices_object, Plan.names]
    | empty => rw [memberNotices, elementNotices_array]
    | array _ _ _ => rw [memberNotices, elementNotices_array]
    | scalar v h =>
      rw [elementNotices_scalar d _ h]
      cases first with
      | array items => cases h
      | object fields => cases h
      | _ => rw [memberNotices]; all_goals simp

/-- The notices about the fields of an object come in their order. -/
theorem fieldNotices_eq_flatMap (fields : Fields) : d.fieldNotices path fields =
    fields.flatMap fun field => d.memberNotices field.1 (path.child field.1) field.2 := by
  induction fields with
  | nil => rw [fieldNotices, List.flatMap_nil]
  | cons field rest ih => rw [fieldNotices, ih, List.flatMap_cons]

end cases

/-- A first item that stands in for the document is never left out. -/
theorem rootNotices_array (hitem : d.plan.names Path.root.element = false) (items : List Value) :
    d.rootNotices (.array items) = mixedNotices items ++ d.firstItemNotices .root items := by
  cases items with
  | nil => rw [rootNotices, firstItemNotices, mixedNotices, List.append_nil]
  | cons first rest =>
    rw [firstItemNotices]
    cases first using Value.visit_induction with
    | object fields _ =>
      rw [rootNotices, elementNotices_object, hitem, if_neg Bool.false_ne_true]
    | empty => rw [rootNotices, elementNotices_array]
    | array _ _ _ => rw [rootNotices, elementNotices_array]
    | scalar v h =>
      rw [elementNotices_scalar d _ h]
      cases first with
      | array items => cases h
      | object fields => cases h
      | _ => rw [rootNotices]; all_goals simp

theorem rootNotices_scalar {v : Value} (h : v.isScalar = true) :
    d.rootNotices v = .scalarRoot v.kind :: d.matcherNotices none .root v := by
  cases v with
  | array items => cases h
  | object fields => cases h
  | _ => rw [rootNotices]; all_goals simp

/-! ## Nodes of values -/

/-- If what is reported about the values of all fields is reported about their nodes, then so it is
for the object around them. -/
theorem fieldNotices_of_members (path : Path) {fields : Fields}
    (h : ∀ field ∈ fields, d.memberNotices field.1 (path.child field.1) field.2 =
      (field.2.nodesUntil d.plan.names (path.child field.1)).flatMap d.nodeNotices) :
    d.fieldNotices path fields =
      ((Value.object fields).nodesBelow d.plan.names path).flatMap d.nodeNotices := by
  rw [fieldNotices_eq_flatMap, Value.nodesBelow_object, List.flatMap_assoc]
  exact List.flatMap_congr h

/-- What is reported about a value is what is reported about its nodes outside of named objects. -/
theorem notices_eq_nodes (v : Value) :
    (∀ (path : Path) (key : String), d.memberNotices key (path.child key) v =
      (v.nodesUntil d.plan.names (path.child key)).flatMap d.nodeNotices) ∧
    ∀ path : Path, d.elementNotices path.element v =
      (v.nodesUntil d.plan.names path.element).flatMap d.nodeNotices := by
  induction v using Value.visit_induction with
  | object fields ih =>
    have hobject (path : Path) :
        (if d.plan.names path then [] else d.fieldNotices path fields) =
          ((Value.object fields).nodesUntil d.plan.names path).flatMap d.nodeNotices := by
      cases hname : d.plan.names path with
      | true => rw [Value.nodesUntil_of_stop hname, if_pos rfl, List.flatMap_nil]
      | false =>
        rw [Value.nodesUntil_eq fun _ => hname, if_neg Bool.false_ne_true,
          d.fieldNotices_of_members path fun field hfield => (ih field hfield).1 path field.1]
        rfl
    exact ⟨fun path key => by rw [memberNotices_object, hobject],
      fun path => by rw [elementNotices_object, hobject]⟩
  | empty =>
    refine ⟨fun path key => ?_, fun path => ?_⟩
    · rw [memberNotices_array, firstItemNotices, Value.nodesUntil_array, Value.nodesBelow_empty]
      rfl
    · rw [elementNotices_array, firstItemNotices, Value.nodesUntil_array, Value.nodesBelow_empty]
      rfl
  | array first rest ih =>
    refine ⟨fun path key => ?_, fun path => ?_⟩
    · rw [memberNotices_array, firstItemNotices, ih.2, Value.nodesUntil_array,
        Value.nodesBelow_array]
      rfl
    · rw [elementNotices_array, firstItemNotices, ih.2, Value.nodesUntil_array,
        Value.nodesBelow_array]
      rfl
  | scalar v h =>
    -- The key that a rule may look at is the last one on the path; an item has none.
    refine ⟨fun path key => ?_, fun path => ?_⟩
    · rw [memberNotices_scalar d _ _ h, Value.nodesUntil_scalar _ h, List.flatMap_singleton,
        nodeNotices_scalar d h]
      rfl
    · rw [elementNotices_scalar d _ h, Value.nodesUntil_scalar _ h, List.flatMap_singleton,
        nodeNotices_scalar d h]
      rfl

/-- What is reported about the fields of an object is what is reported about the nodes below. -/
theorem fieldNotices_eq_nodes (path : Path) (fields : Fields) : d.fieldNotices path fields =
    ((Value.object fields).nodesBelow d.plan.names path).flatMap d.nodeNotices :=
  d.fieldNotices_of_members path fun field _ => (d.notices_eq_nodes field.2).1 path field.1

/-- What is reported about the first item of an array is what is reported about the nodes below. -/
theorem firstItemNotices_eq_nodes (path : Path) (items : List Value) :
    d.firstItemNotices path items =
      ((Value.array items).nodesBelow d.plan.names path).flatMap d.nodeNotices := by
  cases items with
  | nil => rw [firstItemNotices, Value.nodesBelow_empty, List.flatMap_nil]
  | cons first rest => rw [firstItemNotices, (d.notices_eq_nodes first).2, Value.nodesBelow_array]

/-! ## Nodes of blocks -/

/-- What is reported about a document that is a scalar, besides the scalar itself. -/
def scalarNotices (document : Value) : List Notice :=
  if document.isScalar then [.scalarRoot document.kind] else []

/-- The notices about a root block are those of its nodes, in pre-order. -/
theorem rootNotices_eq_nodes (hitem : d.plan.names Path.root.element = false) (document : Value) :
    d.rootNotices document = scalarNotices document ++
      ((.root, document) :: document.nodesBelow d.plan.names .root).flatMap d.nodeNotices := by
  rw [List.flatMap_cons]
  cases document using Value.visit_induction with
  | object fields _ =>
    rw [rootNotices, fieldNotices_eq_nodes]
    rfl
  | empty =>
    rw [rootNotices_array d hitem, firstItemNotices_eq_nodes]
    rfl
  | array first rest _ =>
    rw [rootNotices_array d hitem, firstItemNotices_eq_nodes]
    rfl
  | scalar v h =>
    rw [rootNotices_scalar d h, nodeNotices_scalar d h, Value.nodesBelow_scalar _ h, scalarNotices,
      if_pos h, List.flatMap_nil, List.append_nil]
    rfl

variable {d} {planner : Planner} {document : Value}

/-- What is reported about a document: the notices of the nodes of one block after the other, each
in the order of the document. -/
theorem notices_eq (hsound : d.plan.Sound planner document) (hdistinct : document.DistinctKeys) :
    d.notices document =
      (d.plan.fragments.flatMap fun f =>
        (d.plan.nodesIn document (some f.path)).flatMap d.nodeNotices) ++
      (scalarNotices document ++ (d.plan.nodesIn document none).flatMap d.nodeNotices) := by
  have hitem : d.plan.names Path.root.element = false := hsound.not_names_document rfl
  rw [notices, rootNotices_eq_nodes d hitem, hsound.nodesIn_document hdistinct]
  refine congrArg (· ++ _) (List.flatMap_congr fun f hf => ?_)
  rw [hsound.nodesIn_fragment hdistinct hf, fieldNotices_eq_nodes]
  rfl

end Drafter

/-! ## Notices of a run -/

/-- Whether a notice is about one node of a document. -/
def Notice.isAboutNode : Notice → Bool
  | .mixedArray .. | .unclassified .. => true
  | _ => false

/-- The notices of planning are not about nodes. -/
theorem Plan.not_isAboutNode_of_mem_notices {plan : Plan} {notice : Notice}
    (h : notice ∈ plan.notices) : notice.isAboutNode = false := by
  rcases List.mem_append.mp h with hdecision | hcomplete
  · obtain ⟨d, _, rfl⟩ := List.mem_map.mp hdecision
    rw [Decision.notice]
    split <;> rfl
  · rw [List.mem_singleton.mp hcomplete]
    rfl

theorem Drafter.not_isAboutNode_of_mem_scalarNotices {document : Value} {notice : Notice}
    (h : notice ∈ scalarNotices document) : notice.isAboutNode = false := by
  unfold scalarNotices at h
  split at h
  · rw [List.mem_singleton.mp h]
    rfl
  · cases h

namespace Config

/-- What is reported about the bounds of arrays. -/
def boundsNotices (config : Config) : List Notice :=
  if config.arrays.normalized = config.arrays then [] else [.examplesRaised config.arrays]

/-- The notices about bounds are not about nodes. -/
theorem not_isAboutNode_of_mem_boundsNotices {config : Config} {notice : Notice}
    (h : notice ∈ config.boundsNotices) : notice.isAboutNode = false := by
  unfold boundsNotices at h
  split at h
  · cases h
  · rw [List.mem_singleton.mp h]
    rfl

/-- The notices of a run come in four parts: planning, bounds, blocks and the end. -/
theorem notices_eq (config : Config) (document : Value) :
    config.notices document = (config.planner.plan document).notices ++ config.boundsNotices ++
      (config.drafter (config.planner.plan document)).notices document ++
        [config.generatedNotice (config.generateValue document)] :=
  rfl

/-- The notices about nodes are those of one block after the other, each in the order of the
document. -/
theorem filter_notices (config : Config) {document : Value} (hdistinct : document.DistinctKeys)
    {p : Notice → Bool} (hp : ∀ notice, p notice = true → notice.isAboutNode = true) :
    let plan := config.planner.plan document
    (config.notices document).filter p = plan.homes.flatMap fun home =>
      (plan.nodesIn document home).flatMap fun node =>
        ((config.drafter plan).nodeNotices node).filter p := by
  intro plan
  -- What else a run reports is about no node, and so none of it is left.
  have hother {notices : List Notice} (h : ∀ notice ∈ notices, notice.isAboutNode = false) :
      notices.filter p = [] :=
    List.filter_eq_nil_iff.mpr fun notice hnotice htrue =>
      Bool.false_ne_true ((h notice hnotice).symm.trans (hp notice htrue))
  have hgenerated : ∀ notice ∈ [config.generatedNotice (config.generateValue document)],
      notice.isAboutNode = false := List.forall_mem_singleton.mpr rfl
  have hsound : (config.drafter plan).plan.Sound config.planner document :=
    config.planner.plan_sound hdistinct
  have hdraft := congrArg (List.filter p) (Drafter.notices_eq hsound hdistinct)
  rw [List.filter_append, List.filter_append,
    hother fun _ => Drafter.not_isAboutNode_of_mem_scalarNotices, List.nil_append,
    List.filter_flatMap] at hdraft
  rw [notices_eq, List.filter_append, List.filter_append, List.filter_append,
    hother fun _ => Plan.not_isAboutNode_of_mem_notices,
    hother fun _ => not_isAboutNode_of_mem_boundsNotices,
    hother hgenerated, hdraft, List.nil_append, List.nil_append, List.append_nil, Plan.homes, List.flatMap_append,
    List.flatMap_map, List.flatMap_singleton]
  simp only [List.filter_flatMap]
  rfl

end Config
end ContractDraft

import ContractDraft.Proofs.Contract.Matchers
import ContractDraft.Proofs.Contract.Notices

/-!
# Scalars that no rule accepts

Every scalar of a document is drafted once, with what the policy makes of it under the key that holds
it: a shape and an example, or the shape of its kind alone and a warning with its path
(`Config.fallback_warnings`). The matchers of a block are those of its scalars in the order of the
document (`Drafter.matchers_eq_nodes`), and the warnings come in the same order.
-/

namespace ContractDraft

/-! ## What a policy makes of a scalar -/

namespace Policy

/-- The matcher of a scalar, by the key that holds it. -/
def matcherAt (policy : Policy) (node : Node) : Matcher :=
  match policy.classify ⟨node.2, node.1.key?⟩ with
  | .ok shape => ⟨shape, Literal.ofValue? node.2⟩
  | .error _ => ⟨fallback node.2, none⟩

/-- The warning about a scalar, if the policy rejects it with the key that holds it. -/
def warningAt? (policy : Policy) (node : Node) : Option Notice :=
  match policy.classify ⟨node.2, node.1.key?⟩ with
  | .ok _ => none
  | .error reason => some (.unclassified node.1 reason)

/-- The matchers of the scalars among some nodes. -/
def scalarMatchers (policy : Policy) (nodes : List Node) : List Matcher :=
  (nodes.filter fun node => node.2.isScalar).map policy.matcherAt

variable (policy : Policy)

theorem scalarMatchers_append (m n : List Node) : policy.scalarMatchers (m ++ n) =
    policy.scalarMatchers m ++ policy.scalarMatchers n := by
  rw [scalarMatchers, List.filter_append, List.map_append, scalarMatchers, scalarMatchers]

theorem scalarMatchers_cons_of_not_scalar {v : Value} (h : v.isScalar = false) (path : Path)
    (nodes : List Node) :
    policy.scalarMatchers ((path, v) :: nodes) = policy.scalarMatchers nodes := by
  rw [scalarMatchers, List.filter_cons_of_neg (by simp [h]), scalarMatchers]

theorem scalarMatchers_singleton {v : Value} (h : v.isScalar = true) (path : Path) :
    policy.scalarMatchers [(path, v)] = [policy.matcherAt (path, v)] := by
  rw [scalarMatchers, List.filter_cons_of_pos (by exact h)]
  rfl

end Policy

theorem Drafter.matcher_eq (d : Drafter) (path : Path) (v : Value) :
    d.matcher path.key? v = d.policy.matcherAt (path, v) := by
  rw [matcher, Policy.matcherAt, Policy.classify]
  cases d.policy.shape? ⟨v, path.key?⟩ <;> rfl

/-! ## Matchers of statements -/

/-- The matchers of some statements, in order. -/
def matchers (statements : List Statement) : List Matcher :=
  statements.filterMap Statement.matcher?

theorem matchers_append (s t : List Statement) : matchers (s ++ t) = matchers s ++ matchers t :=
  List.filterMap_append ..

/-- What opens and closes a scope has no matcher. -/
theorem matchers_enclosed {opening closing : Statement} (ho : opening.matcher? = none)
    (hc : closing.matcher? = none) (s : List Statement) :
    matchers (opening :: s ++ [closing]) = matchers s := by
  rw [matchers, List.cons_append, List.filterMap_cons_none ho, List.filterMap_append,
    List.filterMap_cons_none hc, List.filterMap_nil, List.append_nil]
  rfl

/-- The matcher, where statements stand for a scalar. -/
def Content.matcher? : Content → Option Matcher
  | .fragment _ => none
  | .scalar m => some m

theorem matchers_eq_content (statements : List Statement) :
    matchers statements = (ContractDraft.content statements).filterMap Content.matcher? := by
  have hone : Statement.matcher? = fun statement => statement.content?.bind Content.matcher? := by
    funext statement
    cases statement <;> rfl
  rw [content, List.filterMap_filterMap, ← hone, matchers]

namespace Drafter

/-- The matchers in the statements of a value are those of its scalars outside of named objects. -/
theorem matchers_eq_nodes (d : Drafter) (v : Value) :
    (∀ path : Path, matchers (d.statements path.key? path v) =
      d.policy.scalarMatchers (v.nodesUntil d.plan.names path)) ∧
    ∀ path, matchers (d.contents path v) =
      d.policy.scalarMatchers (v.nodesBelow d.plan.names path) := by
  induction v using Value.visit_induction with
  | object fields ih =>
    have hcontents (path : Path) : matchers (d.contents path (.object fields)) =
        d.policy.scalarMatchers ((Value.object fields).nodesBelow d.plan.names path) := by
      rw [Value.nodesBelow_object]
      induction fields with
      | nil =>
        rw [contents_object_nil]
        rfl
      | cons field rest ihrest =>
        obtain ⟨hfield, hrest⟩ := List.forall_mem_cons.mp ih
        rw [contents_object_cons, matchers_append, List.flatMap_cons, Policy.scalarMatchers_append,
          ihrest hrest, ← hfield.1]
        rfl
    refine ⟨fun path => ?_, hcontents⟩
    cases hname : d.plan.nameAt? path with
    | some name =>
      rw [statements_object_of_some hname,
        Value.nodesUntil_of_stop (by rw [Plan.names, hname, Option.isSome_some])]
      rfl
    | none =>
      rw [statements_object_of_none hname, matchers_enclosed rfl rfl, hcontents,
        Value.nodesUntil_eq fun _ => by rw [Plan.names, hname, Option.isSome_none],
        Policy.scalarMatchers_cons_of_not_scalar _ rfl]
  | empty =>
    refine ⟨fun path => ?_, fun path => ?_⟩
    · rw [statements_empty, Value.nodesUntil_array, Value.nodesBelow_empty]
      rfl
    · rw [contents_array_nil, Value.nodesBelow_empty]
      rfl
  | array first rest ih =>
    -- With a key, without one, and inside the brackets, an array is read as its first item.
    have hfirst (path : Path) : matchers (d.statements none path.element first) =
        d.policy.scalarMatchers ((Value.array (first :: rest)).nodesBelow d.plan.names path) := by
      rw [Value.nodesBelow_array, ← ih.1]
      rfl
    refine ⟨fun path => ?_, fun path => ?_⟩
    · rw [matchers_eq_content, content_statements_array, ← matchers_eq_content, hfirst,
        Value.nodesUntil_array, Policy.scalarMatchers_cons_of_not_scalar _ rfl]
    · rw [contents_array_cons, hfirst]
  | scalar v h =>
    refine ⟨fun path => ?_, fun path => ?_⟩
    · rw [statements_scalar d h, Value.nodesUntil_scalar _ h, Policy.scalarMatchers_singleton _ h,
        ← matcher_eq]
      rfl
    · rw [contents_scalar d h, Value.nodesBelow_scalar _ h]
      rfl

variable {d : Drafter} {planner : Planner} {document : Value}

/-- The matchers in a block are those of the scalars that have their home there. -/
theorem matchers_block (hsound : d.plan.Sound planner document) (hdistinct : document.DistinctKeys) :
    ∀ block ∈ (d.draft document).blocks,
      matchers block.statements = d.policy.scalarMatchers (d.plan.nodesIn document block.path) := by
  intro block hblock
  rcases List.mem_append.mp hblock with hfragment | hroot
  · obtain ⟨f, hf, rfl⟩ := List.mem_map.mp hfragment
    have hpath : (d.fragmentBlock f).path = some f.path := rfl
    rw [statements_fragmentBlock, matchers_enclosed rfl rfl, (d.matchers_eq_nodes _).2, hpath,
      hsound.nodesIn_fragment hdistinct hf, Policy.scalarMatchers_cons_of_not_scalar _ rfl]
  · obtain rfl := List.mem_singleton.mp hroot
    have hstatements : (d.draft document).root.statements = d.rootStatements document := rfl
    have hpath : (d.draft document).root.path = none := rfl
    have hroot : d.plan.names .root = false := hsound.not_names_document rfl
    rw [hstatements, hpath, matchers_eq_content,
      content_rootStatements d (hsound.nameAt?_document rfl) (hsound.nameAt?_document rfl),
      ← matchers_eq_content, hsound.nodesIn_document hdistinct, ← Value.nodesUntil_eq fun _ => hroot,
      ← (d.matchers_eq_nodes document).1]
    rfl

end Drafter

/-! ## Warnings -/

/-- Whether a notice warns of a value that no rule accepts, by its wording. -/
def Notice.isFallback (notice : Notice) : Bool :=
  notice.level = .warn ∧ notice.message = "falling back to a type-only matcher"

theorem Notice.isAboutNode_of_isFallback {notice : Notice} (h : notice.isFallback = true) :
    notice.isAboutNode = true := by
  cases notice <;> simp_all [isFallback, level, message, isAboutNode]

/-- Of the notices about a node, the warnings: none about an array or an object. -/
theorem Drafter.filter_nodeNotices_fallback (d : Drafter) (node : Node) :
    (d.nodeNotices node).filter Notice.isFallback =
      if node.2.isScalar then (d.policy.warningAt? node).toList else [] := by
  obtain ⟨path, v⟩ := node
  have hscalar : (d.matcherNotices path.key? path v).filter Notice.isFallback =
        (d.policy.warningAt? (path, v)).toList := by
    rw [matcherNotices, Policy.warningAt?]
    cases d.policy.classify ⟨v, path.key?⟩ <;> rfl
  cases v with
  | object fields => rfl
  | array items =>
    rw [nodeNotices]
    split
    · rfl
    · refine List.filter_eq_nil_iff.mpr fun notice hnotice => ?_
      simp [Notice.isFallback, level_of_mem_mixedNotices hnotice]
  | _ => rw [nodeNotices_scalar d rfl, hscalar]; rfl

namespace Config

/-- Without sharing, each scalar of a document is in one block. The warnings of a run are one for
each scalar that the policy rejects with the key that holds it, with its path and the reason: block
by block, and in a block in the order of the document. The matchers of a block are those of its
scalars in the same order, with the shape of the policy and the example of the value, or with the
shape of the kind alone where the policy rejects it. -/
theorem fallback_warnings (config : Config) {document : Value} (hdistinct : document.DistinctKeys)
    (hoff : config.fragments.reuseIdentical = false) :
    let plan := config.planner.plan document
    let draft := config.draft document
    let scalarsIn (home : Option Path) :=
      (plan.nodesIn document home).filter fun node => node.2.isScalar
    let scalars := draft.blocks.flatMap fun block => scalarsIn block.path
    (scalars.map (·.1)).Nodup ∧
      (∀ path v, (path, v) ∈ scalars ↔ document.at? path = some v ∧ v.isScalar = true) ∧
      (config.notices document).filter Notice.isFallback =
        scalars.filterMap config.policy.warningAt? ∧
      ∀ block ∈ draft.blocks,
        matchers block.statements = (scalarsIn block.path).map config.policy.matcherAt := by
  intro plan draft scalarsIn scalars
  have hsound : plan.Sound config.planner document := config.planner.plan_sound hdistinct
  -- The blocks stand in the order of their homes, and their nodes are all nodes.
  have hscalars : scalars =
      (plan.homes.flatMap (plan.nodesIn document)).filter fun node => node.2.isScalar := by
    have hhomes : draft.blocks.map (·.path) = plan.homes := Drafter.map_path_blocks _ document
    rw [← hhomes, List.flatMap_map, List.filter_flatMap]
  have hperm : scalars.Perm ((document.nodes .root).filter fun node => node.2.isScalar) :=
    hscalars ▸ (hsound.nodesIn_perm hoff).filter _
  refine ⟨?_, fun path v => ?_, ?_, Drafter.matchers_block hsound hdistinct⟩
  · refine (hperm.map (·.1)).nodup_iff.mpr ?_
    exact (Value.nodes_paths_nodup hdistinct .root).sublist (List.filter_sublist.map _)
  · rw [hperm.mem_iff, List.mem_filter, Value.mem_nodes_iff hdistinct]
  · rw [config.filter_notices hdistinct fun _ => Notice.isAboutNode_of_isFallback,
      ← List.flatMap_assoc, hscalars, List.filterMap_filter, List.filterMap_eq_flatMap_toList]
    refine List.flatMap_congr fun node _ => ?_
    rw [Drafter.filter_nodeNotices_fallback]
    split <;> rfl

/-- Values that are missing: in an object that becomes a fragment, beside it and inside arrays. -/
def gaps : Value := .object [
  ("total", .null),
  ("sensor", .object [("unit", .null), ("limits", .array [.null, .integer 3])]),
  ("rows", .array [.array [.null]]),
  ("name", .string "north")]

theorem gaps_distinctKeys : gaps.DistinctKeys := by
  have hnull : Value.null.DistinctKeys := .scalar rfl
  have hlimits : (Value.array [.null, .integer 3]).DistinctKeys :=
    .array (by simpa using ⟨hnull, .scalar rfl⟩)
  have hrows : (Value.array [.array [.null]]).DistinctKeys :=
    .array (by simpa using .array (by simpa using hnull))
  refine .object (by decide) ?_
  simpa using ⟨hnull, .pair (by decide) hnull hlimits, hrows, .scalar rfl⟩

/-- The warnings about the fragment come first, and the one scalar that a rule accepts has an
example. -/
theorem fallback_warnings_gaps :
    let config : Config := { Config.small false with policy := Policy.standard.without "null" }
    let plan := config.planner.plan gaps
    let draft := config.draft gaps
    let scalarsIn (home : Option Path) :=
      (plan.nodesIn gaps home).filter fun node => node.2.isScalar
    let scalars := draft.blocks.flatMap fun block => scalarsIn block.path
    gaps.DistinctKeys ∧ config.fragments.reuseIdentical = false ∧
      scalars.filterMap config.policy.warningAt? = [
        .unclassified [.key "unit", .key "sensor"] ⟨some "unit", .null, .noRule⟩,
        .unclassified [.item, .key "limits", .key "sensor"] ⟨none, .null, .noRule⟩,
        .unclassified [.key "total"] ⟨some "total", .null, .noRule⟩,
        .unclassified [.item, .item, .key "rows"] ⟨none, .null, .noRule⟩] ∧
      (scalarsIn none).map config.policy.matcherAt =
        [⟨.null, none⟩, ⟨.null, none⟩, ⟨.freeString, some (.text "north")⟩] ∧
      (scalars.map (·.1)).Nodup ∧
      (∀ path v, (path, v) ∈ scalars ↔ gaps.at? path = some v ∧ v.isScalar = true) ∧
      (config.notices gaps).filter Notice.isFallback =
        scalars.filterMap config.policy.warningAt? ∧
      ∀ block ∈ draft.blocks,
        matchers block.statements = (scalarsIn block.path).map config.policy.matcherAt := by
  intro config plan draft scalarsIn scalars
  exact ⟨gaps_distinctKeys, rfl, by decide +kernel, by decide +kernel,
    config.fallback_warnings gaps_distinctKeys rfl⟩

end Config
end ContractDraft

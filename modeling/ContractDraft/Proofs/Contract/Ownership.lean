import ContractDraft.Proofs.Contract.References
import ContractDraft.Proofs.Json.Nodes
import Mathlib.Data.List.Infix
import Mathlib.Data.Option.Basic

/-!
# Nodes and the blocks that describe them

A node of a document is described where the innermost object on the way to it is described that the
plan has a name for, the node itself included: in the block of the fragment at that object, and in
the document's own block if there is no such object (`Plan.home?`). `Plan.nodesIn` lists the nodes of
one block in the order of the document; this is the order in which the drafter comes by them
(`nodesIn_fragment`, `nodesIn_document`). Without sharing, every node is in the list of exactly one
block (`nodesIn_perm`).
-/

namespace ContractDraft

/-- Sorting the items of a list by distinct keys that cover them all changes only their order. -/
theorem flatMap_filter_perm {α β : Type} [DecidableEq β] {f : α → β} {keys : List β}
    {items : List α} (hkeys : keys.Nodup) (hcovered : ∀ a ∈ items, f a ∈ keys) :
    (keys.flatMap fun key => items.filter fun a => f a = key).Perm items := by
  induction keys generalizing items with
  | nil =>
    obtain rfl : items = [] := List.eq_nil_iff_forall_not_mem.mpr fun a ha => by
      simpa using hcovered a ha
    exact .nil
  | cons key keys ih =>
    obtain ⟨hnot, hnodup⟩ := List.nodup_cons.mp hkeys
    let others := items.filter fun a => ¬ f a = key
    -- Items with one of the other keys are among the others.
    have hothers : (keys.flatMap fun other => items.filter fun a => f a = other) =
        keys.flatMap fun other => others.filter fun a => f a = other := by
      refine List.flatMap_congr fun other hother => ?_
      rw [List.filter_filter]
      refine List.filter_congr fun a _ => ?_
      by_cases hsame : f a = other
      · have hne : other ≠ key := fun heq => hnot (heq ▸ hother)
        simp [hsame, hne]
      · simp [hsame]
    have hrest : (keys.flatMap fun other => others.filter fun a => f a = other).Perm others := by
      refine ih hnodup fun a ha => ?_
      obtain ⟨hitem, hne⟩ := List.mem_filter.mp ha
      exact (List.mem_cons.mp (hcovered a hitem)).resolve_left (of_decide_eq_true hne)
    rw [List.flatMap_cons, hothers]
    refine (hrest.append_left _).trans ?_
    simpa [others] using List.filter_append_perm (fun a => decide (f a = key)) items

namespace Plan

/-- Whether the plan has a name for the object at a path. -/
def names (plan : Plan) (path : Path) : Bool := (plan.nameAt? path).isSome

/-- The innermost place on a path, its end included, that the plan has a name for. -/
def home? (plan : Plan) (path : Path) : Option Path := path.tails.find? plan.names

/-- The nodes of a document with a home, in order. -/
def nodesIn (plan : Plan) (document : Value) (home : Option Path) : List Node :=
  (document.nodes .root).filter fun node => plan.home? node.1 = home

variable {plan : Plan}

/-! ## Homes -/

theorem home?_of_names {path : Path} (h : plan.names path = true) : plan.home? path = some path := by
  cases path with
  | nil => simp [home?, h]
  | cons step path => rw [home?, List.tails_cons, List.find?_cons_of_pos h]

theorem home?_cons_of_not_names {step : Step} {path : Path}
    (h : plan.names (step :: path) = false) : plan.home? (step :: path) = plan.home? path := by
  rw [home?, List.tails_cons, List.find?_cons_of_neg (by simp [h]), home?]

theorem home?_root (h : plan.names .root = false) : plan.home? .root = none := by
  rw [Path.root] at h
  simp [home?, Path.root, h]

theorem home?_spec {path home : Path} (h : plan.home? path = some home) :
    home <:+ path ∧ plan.names home = true :=
  ⟨(List.mem_tails _ _).mp (List.mem_of_find?_eq_some h), List.find?_some h⟩

/-- Below a place with a name, homes are this place or below it. -/
theorem suffix_home {path other : Path} (h : plan.names path = true) (hbelow : path <:+ other) :
    ∃ home, plan.home? other = some home ∧ path <:+ home := by
  induction other with
  | nil =>
    obtain rfl := List.suffix_nil.mp hbelow
    exact ⟨_, home?_of_names h, hbelow⟩
  | cons step other ih =>
    cases hstep : plan.names (step :: other) with
    | true => exact ⟨_, home?_of_names hstep, hbelow⟩
    | false =>
      rw [home?_cons_of_not_names hstep]
      rcases List.suffix_cons_iff.mp hbelow with rfl | hbefore
      · rw [hstep] at h
        cases h
      · exact ih hbefore

/-- What is below a step to a place with a name has another home than where the step starts. -/
theorem home?_ne_of_names {step : Step} {path other : Path} (h : plan.names (step :: path) = true)
    (hbelow : step :: path <:+ other) : plan.home? other ≠ plan.home? path := by
  obtain ⟨home, hhome, hinside⟩ := suffix_home h hbelow
  intro hsame
  have hlength := (hinside.trans (home?_spec (hsame.symm.trans hhome)).1).length_le
  rw [List.length_cons] at hlength
  omega

/-! ## The nodes of one block -/

/-- Behind one step: if the nodes outside of named objects are those with the home of the value,
then they are those with the home of the place that the step starts from. -/
theorem nodesUntil_step_eq_filter {step : Step} {path : Path} {v : Value}
    (hnamed : plan.names (step :: path) = true → v.kind = .object)
    (hbelow : (step :: path, v) :: v.nodesBelow plan.names (step :: path) =
      (v.nodes (step :: path)).filter fun node => plan.home? node.1 = plan.home? (step :: path)) :
    v.nodesUntil plan.names (step :: path) =
      (v.nodes (step :: path)).filter fun node => plan.home? node.1 = plan.home? path := by
  cases hstep : plan.names (step :: path) with
  | false => rw [Value.nodesUntil_eq fun _ => hstep, hbelow, home?_cons_of_not_names hstep]
  | true =>
    have hnone : (v.nodes (step :: path)).filter
        (fun node => plan.home? node.1 = plan.home? path) = [] :=
      List.filter_eq_nil_iff.mpr fun node hnode hsame =>
        home?_ne_of_names hstep (Value.suffix_of_mem_nodes hnode) (of_decide_eq_true hsame)
    rw [hnone]
    cases v with
    | object fields => exact Value.nodesUntil_of_stop hstep fields
    | _ => cases hnamed hstep

/-- Within a value, the nodes outside of named objects are those with the home of the value. -/
theorem nodesBelow_eq_filter (v : Value) {path : Path}
    (hnamed : ∀ node ∈ v.nodes path, plan.names node.1 = true → node.2.kind = .object) :
    (path, v) :: v.nodesBelow plan.names path =
      (v.nodes path).filter fun node => plan.home? node.1 = plan.home? path := by
  induction v using Value.visit_induction generalizing path with
  | object fields ih =>
    rw [Value.nodes_object] at hnamed ⊢
    rw [List.filter_cons_of_pos (by simp), List.filter_flatMap, Value.nodesBelow_object]
    refine congrArg _ (List.flatMap_congr fun field hfield => ?_)
    have hfields : ∀ node ∈ field.2.nodes (path.child field.1),
        plan.names node.1 = true → node.2.kind = .object := fun node hnode =>
      hnamed node (List.mem_cons_of_mem _ (List.mem_flatMap.mpr ⟨field, hfield, hnode⟩))
    exact nodesUntil_step_eq_filter (hfields _ (Value.self_mem_nodes ..)) (ih field hfield hfields)
  | empty =>
    rw [Value.nodes_empty, Value.nodesBelow_empty, List.filter_cons_of_pos (by simp),
      List.filter_nil]
  | array first rest ih =>
    rw [Value.nodes_array] at hnamed ⊢
    rw [List.filter_cons_of_pos (by simp), Value.nodesBelow_array]
    have hfirst : ∀ node ∈ first.nodes path.element,
        plan.names node.1 = true → node.2.kind = .object := fun node hnode =>
      hnamed node (List.mem_cons_of_mem _ hnode)
    exact congrArg _ (nodesUntil_step_eq_filter (hfirst _ (Value.self_mem_nodes ..)) (ih hfirst))
  | scalar v hscalar =>
    rw [Value.nodes_scalar hscalar, Value.nodesBelow_scalar _ hscalar,
      List.filter_cons_of_pos (by simp), List.filter_nil]

section sound

variable {planner : Planner} {document : Value}

/-- Only objects have names. -/
theorem Sound.kind_of_names (h : plan.Sound planner document) {path : Path} {v : Value}
    (hat : document.at? path = some v) (hname : plan.names path = true) : v.kind = .object := by
  obtain ⟨name, hname⟩ := Option.isSome_iff_exists.mp hname
  obtain ⟨d, hd, rfl, _⟩ := exists_of_nameAt? hname
  obtain rfl := Option.some.inj ((h.located d hd).symm.trans hat)
  rfl

/-- The nodes with the home of a place, if that is the place itself or there is none above it: what
the drafter comes by from there on. -/
theorem Sound.nodesIn_eq (h : plan.Sound planner document) (hdistinct : document.DistinctKeys)
    {path : Path} {v : Value} (hat : document.at? path = some v)
    (hbelow : ∀ other, plan.home? other = plan.home? path → path <:+ other) :
    plan.nodesIn document (plan.home? path) = (path, v) :: v.nodesBelow plan.names path := by
  rw [nodesBelow_eq_filter v fun node hnode =>
      h.kind_of_names (Value.at?_of_mem_nodes hdistinct hat hnode),
    ← Value.filter_suffix_nodes hdistinct hat, List.filter_filter]
  -- The nodes with this home lie below the place, so nothing is lost by looking there only.
  refine List.filter_congr fun node _ => ?_
  by_cases hsame : plan.home? node.1 = plan.home? path
  · simp [hsame, hbelow node.1 hsame]
  · simp [hsame]

/-- The nodes in the block of a fragment are those of its object, outside of other fragments. -/
theorem Sound.nodesIn_fragment (h : plan.Sound planner document)
    (hdistinct : document.DistinctKeys) {f : Decision} (hf : f ∈ plan.fragments) :
    plan.nodesIn document (some f.path) =
      (f.path, .object f.fields) :: (Value.object f.fields).nodesBelow plan.names f.path := by
  have hmem := (mem_fragments.mp hf).1
  have hname : plan.names f.path = true := by
    rw [names, h.nameAt?_of_mem hmem, Option.isSome_some]
  rw [← home?_of_names hname]
  refine h.nodesIn_eq hdistinct (h.located f hmem) fun other hother => ?_
  exact (home?_spec (hother.trans (home?_of_names hname))).1

theorem Sound.not_names_document (h : plan.Sound planner document) {path : Path}
    (hdocument : path.isDocument = true) : plan.names path = false := by
  rw [names, h.nameAt?_document hdocument, Option.isSome_none]

/-- The nodes in the document's own block are those outside of all fragments. -/
theorem Sound.nodesIn_document (h : plan.Sound planner document)
    (hdistinct : document.DistinctKeys) :
    plan.nodesIn document none = (.root, document) :: document.nodesBelow plan.names .root := by
  have hroot : plan.names .root = false := h.not_names_document rfl
  rw [← home?_root hroot]
  exact h.nodesIn_eq hdistinct (Value.at?_root document) fun other _ => List.nil_suffix ..

/-! ## All blocks -/

/-- The homes of blocks, in the order of writing. -/
def homes (plan : Plan) : List (Option Path) :=
  plan.fragments.map (fun f => some f.path) ++ [none]

theorem Sound.homes_nodup (h : plan.Sound planner document) : plan.homes.Nodup := by
  have hpaths : (plan.fragments.map (·.path)).Nodup :=
    h.paths_nodup.sublist (List.filter_sublist.map _)
  have hsome : (plan.fragments.map fun f => some f.path).Nodup := by
    have hmap := hpaths.map (Option.some_injective Path)
    rwa [List.map_map] at hmap
  refine List.nodup_append.mpr ⟨hsome, List.nodup_singleton _, ?_⟩
  rintro home hhome other hother rfl
  obtain rfl := List.mem_singleton.mp hother
  obtain ⟨f, _, hf⟩ := List.mem_map.mp hhome
  cases hf

/-- Without sharing, every node is in exactly one block. -/
theorem Sound.nodesIn_perm (h : plan.Sound planner document)
    (hoff : planner.options.reuseIdentical = false) :
    (plan.homes.flatMap (plan.nodesIn document)).Perm (document.nodes .root) := by
  refine flatMap_filter_perm h.homes_nodup fun node _ => ?_
  cases hhome : plan.home? node.1 with
  | none => exact List.mem_append_right _ (List.mem_singleton_self none)
  | some home =>
    refine List.mem_append_left _ (List.mem_map.mpr ?_)
    obtain ⟨name, hname⟩ := Option.isSome_iff_exists.mp (home?_spec hhome).2
    obtain ⟨d, hd, rfl, _⟩ := exists_of_nameAt? hname
    exact ⟨d, by rwa [h.fragments_eq hoff], rfl⟩

end sound
end Plan

/-- The blocks of a draft stand in the order of their homes. -/
theorem Drafter.map_path_blocks (d : Drafter) (document : Value) :
    (d.draft document).blocks.map (·.path) = d.plan.homes := by
  rw [Draft.blocks, draft, List.map_append, List.map_map, Plan.homes]
  rfl

end ContractDraft

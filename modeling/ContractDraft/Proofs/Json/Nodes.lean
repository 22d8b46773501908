import ContractDraft.Proofs.Json.Position

/-!
# The nodes of a document

The values that keys and first items lead to, each with its path, as one list in the order of the
document. Such a list may leave out the objects at certain paths with everything in them, as the
block of a fragment leaves out those that have fragments of their own.

Where keys are distinct, the list of all nodes is a table of the values that paths lead to
(`mem_nodes_iff`, `nodes_paths_nodup`), and the nodes below a path stand in it together and in order
(`filter_suffix_nodes`).
-/

namespace ContractDraft

/-- A value of a document and the path that leads to it. -/
abbrev Node := Path × Value

mutual

/-- The value at `path` and the values in it, in order. Objects at paths where `stop` holds are left
out with everything in them. -/
def Value.nodesUntil (stop : Path → Bool) (path : Path) : Value → List Node
  | .object fields =>
    if stop path then [] else (path, .object fields) :: fieldNodes stop path fields
  | .array items => (path, .array items) :: firstNodes stop path items
  | v => [(path, v)]
termination_by structural v => v

/-- The values in the fields of the object at `path`. -/
def fieldNodes (stop : Path → Bool) (path : Path) : List (String × Value) → List Node
  | [] => []
  | (key, v) :: rest => v.nodesUntil stop (path.child key) ++ fieldNodes stop path rest
termination_by structural fields => fields

/-- The values in the first item of the array at `path`. -/
def firstNodes (stop : Path → Bool) (path : Path) : List Value → List Node
  | [] => []
  | first :: _ => first.nodesUntil stop path.element
termination_by structural items => items

end

namespace Value

/-- The values in the value at `path`, without the value itself. -/
def nodesBelow (stop : Path → Bool) (path : Path) : Value → List Node
  | .object fields => fieldNodes stop path fields
  | .array items => firstNodes stop path items
  | _ => []

/-- The value at `path` and all values in it, in order. -/
def nodes (path : Path) (v : Value) : List Node :=
  v.nodesUntil (fun _ => false) path

section cases

variable (stop : Path → Bool) {path : Path}

/-- Where the walk stops at an object it sees nothing of it. -/
theorem nodesUntil_of_stop {stop : Path → Bool} (h : stop path = true) (fields : Fields) :
    (Value.object fields).nodesUntil stop path = [] := by
  rw [nodesUntil, if_pos h]

/-- Where the walk does not stop it sees the value and what is below. -/
theorem nodesUntil_eq {stop : Path → Bool} {v : Value} (h : v.kind = .object → stop path = false) :
    v.nodesUntil stop path = (path, v) :: v.nodesBelow stop path := by
  cases v with
  | object fields => rw [nodesUntil, h rfl, if_neg Bool.false_ne_true, nodesBelow]
  | array items => rw [nodesUntil, nodesBelow]
  | _ => rw [nodesUntil, nodesBelow]; all_goals simp

theorem nodesUntil_array (path : Path) (items : List Value) :
    (Value.array items).nodesUntil stop path =
      (path, .array items) :: (Value.array items).nodesBelow stop path := by
  rw [nodesUntil, nodesBelow]

theorem nodesUntil_scalar {v : Value} (h : v.isScalar = true) (path : Path) :
    v.nodesUntil stop path = [(path, v)] := by
  cases v with
  | array items => cases h
  | object fields => cases h
  | _ => rw [nodesUntil]; all_goals simp

/-- Below an object are its fields, in their order. -/
theorem nodesBelow_object (path : Path) (fields : Fields) :
    (Value.object fields).nodesBelow stop path =
      fields.flatMap fun field => field.2.nodesUntil stop (path.child field.1) := by
  rw [nodesBelow]
  induction fields with
  | nil => rw [fieldNodes, List.flatMap_nil]
  | cons field rest ih => rw [fieldNodes, ih, List.flatMap_cons]

theorem nodesBelow_empty (path : Path) : (Value.array []).nodesBelow stop path = [] := by
  rw [nodesBelow, firstNodes]

/-- Below an array is its first item. -/
theorem nodesBelow_array (path : Path) (first : Value) (rest : List Value) :
    (Value.array (first :: rest)).nodesBelow stop path = first.nodesUntil stop path.element := by
  rw [nodesBelow, firstNodes]

theorem nodesBelow_scalar {v : Value} (h : v.isScalar = true) (path : Path) :
    v.nodesBelow stop path = [] := by
  cases v with
  | array items => cases h
  | object fields => cases h
  | _ => rfl

end cases

theorem nodes_object (path : Path) (fields : Fields) : (Value.object fields).nodes path =
    (path, .object fields) :: fields.flatMap fun field => field.2.nodes (path.child field.1) := by
  rw [nodes, nodesUntil_eq fun _ => rfl, nodesBelow_object]
  rfl

theorem nodes_empty (path : Path) : (Value.array []).nodes path = [(path, .array [])] := by
  rw [nodes, nodesUntil_array, nodesBelow_empty]

theorem nodes_array (path : Path) (first : Value) (rest : List Value) :
    (Value.array (first :: rest)).nodes path =
      (path, .array (first :: rest)) :: first.nodes path.element := by
  rw [nodes, nodesUntil_array, nodesBelow_array]
  rfl

theorem nodes_scalar {v : Value} (h : v.isScalar = true) (path : Path) :
    v.nodes path = [(path, v)] :=
  nodesUntil_scalar _ h path

/-- Every value is among its own nodes. -/
theorem self_mem_nodes (path : Path) (v : Value) : (path, v) ∈ v.nodes path := by
  rw [nodes, nodesUntil_eq fun _ => rfl]
  exact List.mem_cons_self ..

/-! ## Paths of nodes -/

/-- All nodes in a value lie below it. -/
theorem suffix_of_mem_nodes {path : Path} {v : Value} {node : Node} (h : node ∈ v.nodes path) :
    path <:+ node.1 := by
  induction v using Value.visit_induction generalizing path with
  | object fields ih =>
    rw [nodes_object] at h
    rcases List.mem_cons.mp h with rfl | hbelow
    · exact List.suffix_rfl
    · obtain ⟨field, hfield, hnode⟩ := List.mem_flatMap.mp hbelow
      exact (path.suffix_child field.1).trans (ih field hfield hnode)
  | empty =>
    rw [nodes_empty, List.mem_singleton] at h
    exact h ▸ List.suffix_rfl
  | array first rest ih =>
    rw [nodes_array] at h
    rcases List.mem_cons.mp h with rfl | hbelow
    · exact List.suffix_rfl
    · exact path.suffix_element.trans (ih hbelow)
  | scalar v hscalar =>
    rw [nodes_scalar hscalar, List.mem_singleton] at h
    exact h ▸ List.suffix_rfl

/-- Nodes below a step lie below where the step starts, and not there. -/
theorem ne_of_mem_nodes_step {step : Step} {path : Path} {v : Value} {node : Node}
    (h : node ∈ v.nodes (step :: path)) : node.1 ≠ path := by
  intro hsame
  have hlength := (suffix_of_mem_nodes h).length_le
  rw [hsame, List.length_cons] at hlength
  omega

/-- Nodes below one key of an object lie apart from all other keys. -/
theorem apart_of_mem_nodes {path : Path} {k l : String} (h : k ≠ l) {v : Value} {node : Node}
    (hnode : node ∈ v.nodes (path.child k)) : node.1.Apart (path.child l) :=
  (Path.child_apart h).of_suffix (suffix_of_mem_nodes hnode)

/-- Among distinct keys no two nodes have the same path. -/
theorem nodes_paths_nodup {v : Value} (hdistinct : v.DistinctKeys) (path : Path) :
    ((v.nodes path).map (·.1)).Nodup := by
  induction v using Value.visit_induction generalizing path with
  | object fields ih =>
    rw [nodes_object, List.map_cons, List.nodup_cons, List.map_flatMap,
      List.nodup_flatMap]
    refine ⟨?_, fun field hfield => ih field hfield (hdistinct.of_mem_fields hfield) _, ?_⟩
    · rw [List.mem_flatMap]
      rintro ⟨field, _, hmem⟩
      obtain ⟨node, hnode, hpath⟩ := List.mem_map.mp hmem
      exact ne_of_mem_nodes_step hnode hpath
    · refine (List.pairwise_map.mp hdistinct.keys_nodup).imp fun {f g} hne => ?_
      -- A common path would lead through both keys.
      intro p hf hg
      obtain ⟨m, hm, rfl⟩ := List.mem_map.mp hf
      obtain ⟨n, hn, hsame⟩ := List.mem_map.mp hg
      exact (apart_of_mem_nodes hne hm).2 (hsame ▸ suffix_of_mem_nodes hn)
  | empty =>
    rw [nodes_empty]
    exact List.nodup_singleton _
  | array first rest ih =>
    rw [nodes_array, List.map_cons, List.nodup_cons]
    refine ⟨?_, ih (hdistinct.of_mem_items (List.mem_cons_self ..)) path.element⟩
    intro hmem
    obtain ⟨node, hnode, hpath⟩ := List.mem_map.mp hmem
    exact ne_of_mem_nodes_step hnode hpath
  | scalar v hscalar =>
    rw [nodes_scalar hscalar]
    exact List.nodup_singleton _

/-! ## Nodes below a path -/

/-- The nodes of an object that lie below one key are those of the value it holds under the key. -/
theorem filter_suffix_nodes_object {fields : Fields} (hkeys : (fields.map (·.1)).Nodup)
    (path : Path) {field : String × Value} (hmem : field ∈ fields) :
    ((Value.object fields).nodes path).filter (fun node => path.child field.1 <:+ node.1) =
      field.2.nodes (path.child field.1) := by
  obtain ⟨before, behind, rfl⟩ := List.append_of_mem hmem
  have hother {other : String × Value} (hne : other.1 ≠ field.1) :
      (other.2.nodes (path.child other.1)).filter
        (fun node => path.child field.1 <:+ node.1) = [] := by
    refine List.filter_eq_nil_iff.mpr fun node hnode hsuffix => ?_
    exact (apart_of_mem_nodes hne hnode).2 (of_decide_eq_true hsuffix)
  have hself : (field.2.nodes (path.child field.1)).filter
      (fun node => path.child field.1 <:+ node.1) = field.2.nodes (path.child field.1) :=
    List.filter_eq_self.mpr fun node hnode => decide_eq_true (suffix_of_mem_nodes hnode)
  have hnone {others : Fields} (hne : ∀ other ∈ others, other.1 ≠ field.1) :
      (others.flatMap fun other => other.2.nodes (path.child other.1)).filter
        (fun node => path.child field.1 <:+ node.1) = [] := by
    rw [List.filter_flatMap, List.flatMap_eq_nil_iff]
    exact fun other hmem => hother (hne other hmem)
  rw [List.map_append, List.map_cons, List.nodup_append, List.nodup_cons] at hkeys
  obtain ⟨_, ⟨hbehind, _⟩, hbefore⟩ := hkeys
  have hbefore : ∀ other ∈ before, other.1 ≠ field.1 := fun other hmem =>
    hbefore _ (List.mem_map_of_mem hmem) _ (List.mem_cons_self ..)
  have hbehind : ∀ other ∈ behind, other.1 ≠ field.1 := fun other hmem hsame =>
    hbehind (hsame ▸ List.mem_map_of_mem hmem)
  rw [nodes_object, List.filter_cons_of_neg (by simpa using path.not_child_suffix field.1),
    List.flatMap_append, List.flatMap_cons, List.filter_append, List.filter_append, hself,
    hnone hbefore, hnone hbehind, List.nil_append, List.append_nil]

/-- The nodes of a document that lie below a path are those of the value that it leads to. -/
theorem filter_suffix_nodes {document : Value} (hdistinct : document.DistinctKeys) {path : Path}
    {v : Value} (h : document.at? path = some v) :
    (document.nodes .root).filter (fun node => path <:+ node.1) = v.nodes path := by
  induction path generalizing v with
  | nil =>
    obtain rfl : document = v := Option.some.inj h
    exact List.filter_eq_self.mpr fun node _ => decide_eq_true (List.nil_suffix ..)
  | cons step path ih =>
    -- What lies below the step lies below the path before it.
    have hnarrow {w : Value} (hw : document.at? path = some w) :
        (document.nodes .root).filter (fun node => step :: path <:+ node.1) =
          (w.nodes path).filter (fun node => step :: path <:+ node.1) := by
      rw [← ih hw, List.filter_filter]
      refine List.filter_congr fun node _ => ?_
      have hbefore : step :: path <:+ node.1 → path <:+ node.1 := (List.suffix_cons ..).trans
      by_cases hsuffix : step :: path <:+ node.1
      · simp [hsuffix, hbefore hsuffix]
      · simp [hsuffix]
    cases step with
    | key key =>
      simp only [at?] at h
      split at h
      · rename_i fields hfields
        obtain ⟨field, hfind, rfl⟩ := Option.map_eq_some_iff.mp h
        obtain rfl : field.1 = key := by simpa using List.find?_some hfind
        rw [hnarrow hfields]
        exact filter_suffix_nodes_object (hdistinct.at? hfields).keys_nodup path
          (List.mem_of_find?_eq_some hfind)
      · cases h
    | item =>
      simp only [at?] at h
      split at h
      · rename_i items hitems
        obtain ⟨rest, rfl⟩ := List.head?_eq_some_iff.mp h
        rw [hnarrow hitems, nodes_array, List.filter_cons_of_neg]
        · exact List.filter_eq_self.mpr fun node hnode => decide_eq_true (suffix_of_mem_nodes hnode)
        · intro hsuffix
          have hlength : path.length + 1 ≤ path.length := (of_decide_eq_true hsuffix).length_le
          omega
      · cases h

/-- Every node is where its path leads to. -/
theorem at?_of_mem_nodes {document v : Value} (hdistinct : document.DistinctKeys) {path : Path}
    (h : document.at? path = some v) {node : Node} (hmem : node ∈ v.nodes path) :
    document.at? node.1 = some node.2 := by
  induction v using Value.visit_induction generalizing path with
  | object fields ih =>
    rw [nodes_object] at hmem
    rcases List.mem_cons.mp hmem with rfl | hbelow
    · exact h
    · obtain ⟨field, hfield, hnode⟩ := List.mem_flatMap.mp hbelow
      exact ih field hfield (at?_child h (hdistinct.at? h).keys_nodup hfield) hnode
  | empty =>
    rw [nodes_empty] at hmem
    rw [List.mem_singleton.mp hmem]
    exact h
  | array first rest ih =>
    rw [nodes_array] at hmem
    rcases List.mem_cons.mp hmem with rfl | hbelow
    · exact h
    · exact ih (at?_element h) hbelow
  | scalar v hscalar =>
    rw [nodes_scalar hscalar] at hmem
    rw [List.mem_singleton.mp hmem]
    exact h

/-- The nodes of a document are the values that paths lead to. -/
theorem mem_nodes_iff {document : Value} (hdistinct : document.DistinctKeys) {path : Path}
    {v : Value} : (path, v) ∈ document.nodes .root ↔ document.at? path = some v := by
  refine ⟨fun hmem => at?_of_mem_nodes hdistinct (at?_root document) hmem, fun h => ?_⟩
  have hself := self_mem_nodes path v
  rw [← filter_suffix_nodes hdistinct h] at hself
  exact List.mem_of_mem_filter hself

end Value
end ContractDraft

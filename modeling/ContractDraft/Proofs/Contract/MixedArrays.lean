import ContractDraft.Proofs.Contract.Notices

/-!
# Arrays with items of several kinds

Every such array that is the document or the value of a field is reported once, with the first kind,
the least index of another kind, and this kind (`Config.mixed_arrays`). An array that is an item of
an array is not looked at: of it only the first item is described (`Config.mixed_item_not_reported`).
-/

namespace ContractDraft

/-- That an item of an array is of another kind than the first. -/
structure Deviation where
  first : Kind
  index : ℕ
  found : Kind

namespace Deviation

/-- How a deviation is reported. -/
def notice (e : Deviation) : Notice := .mixedArray e.first e.index e.found

/-- Whether the items before the index are of the first kind and the one there is not. -/
structure IsFirstOf (e : Deviation) (items : List Value) : Prop where
  first : items.head?.map Value.kind = some e.first
  before : ∀ i < e.index, items[i]?.map Value.kind = some e.first
  found : items[e.index]?.map Value.kind = some e.found
  differs : e.found ≠ e.first

/-- The first item of another kind than the first item of all. -/
def ofItems? : List Value → Option Deviation
  | [] => none
  | first :: rest =>
    (firstDeviation? (first :: rest)).map fun (index, found) => ⟨first.kind, index, found⟩

theorem isFirstOf_of_ofItems? {items : List Value} {e : Deviation} (h : ofItems? items = some e) :
    e.IsFirstOf items := by
  cases items with
  | nil => cases h
  | cons first rest =>
    obtain ⟨⟨index, found⟩, hfirst, rfl⟩ := Option.map_eq_some_iff.mp h
    obtain ⟨i, hi, hitem⟩ := Option.bind_eq_some_iff.mp hfirst
    obtain ⟨v, hv, hpair⟩ := Option.map_eq_some_iff.mp hitem
    obtain ⟨rfl, rfl⟩ : i + 1 = index ∧ v.kind = found := by simpa using hpair
    obtain ⟨hlength, hdiffers, hbefore⟩ := List.findIdx?_eq_some_iff_getElem.mp hi
    obtain rfl : rest[i] = v := by simpa [hlength] using hv
    refine ⟨rfl, fun j hj => ?_, by simp [hlength], by simpa using hdiffers⟩
    cases j with
    | zero => rfl
    | succ j =>
      have hj : j < i := by simpa using hj
      simpa [hj.trans hlength] using hbefore j hj

theorem ofItems?_of_isFirstOf {items : List Value} {e : Deviation} (h : e.IsFirstOf items) :
    ofItems? items = some e := by
  obtain ⟨firstKind, index, found⟩ := e
  obtain ⟨hfirst, hbefore, hfound, hdiffers⟩ := h
  cases items with
  | nil => cases hfirst
  | cons first rest =>
    obtain rfl : first.kind = firstKind := Option.some.inj hfirst
    cases index with
    -- The first item is of its own kind.
    | zero => exact absurd (Option.some.inj hfound).symm hdiffers
    | succ i =>
      obtain ⟨v, hv, rfl⟩ := Option.map_eq_some_iff.mp hfound
      obtain ⟨hlength, rfl⟩ : ∃ h : i < rest.length, rest[i] = v :=
        List.getElem?_eq_some_iff.mp (by simpa using hv)
      have hindex : (rest.findIdx? fun v => v.kind ≠ first.kind) = some i := by
        refine List.findIdx?_eq_some_iff_getElem.mpr
          ⟨hlength, by simpa using hdiffers, fun j hj => ?_⟩
        simpa [hj.trans hlength] using hbefore (j + 1) (Nat.succ_lt_succ hj)
      rw [ofItems?, firstDeviation?, hindex, Option.bind_some, List.getElem?_eq_getElem hlength]
      rfl

theorem ofItems?_eq_some_iff {items : List Value} {e : Deviation} :
    ofItems? items = some e ↔ e.IsFirstOf items :=
  ⟨isFirstOf_of_ofItems?, ofItems?_of_isFirstOf⟩

/-- An array is reported if there is a deviation, and once. -/
theorem mixedNotices_eq (items : List Value) :
    mixedNotices items = ((ofItems? items).map notice).toList := by
  cases items with
  | nil => rfl
  | cons first rest =>
    rw [mixedNotices, ofItems?]
    split
    · rename_i index found h
      rw [h]
      rfl
    · rename_i h
      rw [h]
      rfl

end Deviation

/-! ## Reports on nodes -/

/-- Whether a notice reports items of several kinds, by its wording. -/
def Notice.isMixed (notice : Notice) : Bool :=
  notice.message = "heterogeneous array, sampling first element"

theorem Notice.isAboutNode_of_isMixed {notice : Notice} (h : notice.isMixed = true) :
    notice.isAboutNode = true := by
  cases notice <;> simp_all [isMixed, message, isAboutNode]

/-- The deviation in an array that is reported: one that is not itself an item of an array. -/
def Node.deviation? : Node → Option (Path × Deviation)
  | (path, .array items) =>
    if path.isItem then none else (Deviation.ofItems? items).map (path, ·)
  | _ => none

theorem Node.deviation?_eq_some_iff {node : Node} {path : Path} {e : Deviation} :
    node.deviation? = some (path, e) ↔
      path.isItem = false ∧ ∃ items, node = (path, .array items) ∧ e.IsFirstOf items := by
  obtain ⟨place, v⟩ := node
  cases v with
  | array items =>
    rw [deviation?]
    constructor
    · intro h
      split at h
      · cases h
      · rename_i hitem
        obtain ⟨found, hfound, hpair⟩ := Option.map_eq_some_iff.mp h
        obtain ⟨rfl, rfl⟩ := Prod.mk.inj hpair
        exact ⟨by simpa using hitem, items, rfl, Deviation.ofItems?_eq_some_iff.mp hfound⟩
    · rintro ⟨hitem, others, hnode, hfirst⟩
      obtain ⟨rfl, harray⟩ := Prod.mk.inj hnode
      obtain rfl : items = others := by simpa using harray
      rw [hitem, if_neg Bool.false_ne_true, Deviation.ofItems?_eq_some_iff.mpr hfirst]
      rfl
  | _ => simp [deviation?]

/-- Of the notices about a node, those about several kinds. -/
theorem Drafter.filter_nodeNotices_mixed (d : Drafter) (node : Node) :
    (d.nodeNotices node).filter Notice.isMixed =
      (node.deviation?.map fun report => report.2.notice).toList := by
  have hscalar (key : Option String) (path : Path) (v : Value) :
      (d.matcherNotices key path v).filter Notice.isMixed = [] := by
    rw [matcherNotices]
    split <;> rfl
  obtain ⟨path, v⟩ := node
  cases v with
  | object fields => rfl
  | array items =>
    rw [nodeNotices, Node.deviation?]
    split
    · rfl
    · rw [Deviation.mixedNotices_eq]
      cases Deviation.ofItems? items <;> rfl
  | _ => rw [nodeNotices_scalar d rfl, hscalar]; rfl

namespace Config

/-- Without sharing, the reports of several kinds are those of the document and of the values of
fields that are arrays with a deviation: one for each of them, with its first deviation. -/
theorem mixed_arrays (config : Config) {document : Value} (hdistinct : document.DistinctKeys)
    (hoff : config.fragments.reuseIdentical = false) :
    ∃ reports : List (Path × Deviation),
      (reports.map (·.1)).Nodup ∧
      (∀ path e, (path, e) ∈ reports ↔ path.isItem = false ∧
        ∃ items, document.at? path = some (.array items) ∧ e.IsFirstOf items) ∧
      (config.notices document).filter Notice.isMixed =
        reports.map fun report => report.2.notice := by
  let plan := config.planner.plan document
  have hsound : plan.Sound config.planner document := config.planner.plan_sound hdistinct
  have hperm := hsound.nodesIn_perm hoff
  refine ⟨(plan.homes.flatMap (plan.nodesIn document)).filterMap Node.deviation?, ?_, ?_, ?_⟩
  · -- A report keeps the path of its node, and paths of nodes are distinct.
    have hpaths := (hperm.map (·.1)).nodup_iff.mpr (Value.nodes_paths_nodup hdistinct .root)
    refine List.pairwise_map.mpr ((List.pairwise_map.mp hpaths).filterMap _ ?_)
    rintro m n hne ⟨path, e⟩ hm ⟨other, e'⟩ hn
    obtain ⟨_, _, rfl, _⟩ := Node.deviation?_eq_some_iff.mp hm
    obtain ⟨_, _, rfl, _⟩ := Node.deviation?_eq_some_iff.mp hn
    exact hne
  · intro path e
    rw [List.mem_filterMap]
    constructor
    · rintro ⟨node, hnode, he⟩
      obtain ⟨hitem, items, rfl, hfirst⟩ := Node.deviation?_eq_some_iff.mp he
      exact ⟨hitem, items, (Value.mem_nodes_iff hdistinct).mp (hperm.mem_iff.mp hnode), hfirst⟩
    · rintro ⟨hitem, items, hat, hfirst⟩
      exact ⟨(path, .array items), hperm.mem_iff.mpr ((Value.mem_nodes_iff hdistinct).mpr hat),
        Node.deviation?_eq_some_iff.mpr ⟨hitem, items, rfl, hfirst⟩⟩
  · rw [config.filter_notices hdistinct fun _ => Notice.isAboutNode_of_isMixed,
      ← List.flatMap_assoc, List.map_filterMap, List.filterMap_eq_flatMap_toList]
    exact List.flatMap_congr fun node _ => Drafter.filter_nodeNotices_mixed _ node

/-- Readings of a sensor, which becomes a fragment: the array in it, the one beside it and the one
inside another array all have items of several kinds. -/
def readings : Value := .object [
  ("rows", .array [.integer 1, .integer 2, .null]),
  ("groups", .array [.array [.boolean true, .null]]),
  ("sensor", .object [("unit", .null), ("limits", .array [.null, .string "none"])])]

theorem readings_distinctKeys : readings.DistinctKeys := by
  have hscalars {items : List Value} (h : ∀ v ∈ items, v.isScalar = true) :
      (Value.array items).DistinctKeys := .array fun v hv => .scalar (h v hv)
  have hsensor : (Value.object [("unit", .null),
      ("limits", .array [.null, .string "none"])]).DistinctKeys :=
    .pair (by decide) (.scalar rfl) (hscalars (by decide))
  have hgroups : (Value.array [.array [.boolean true, .null]]).DistinctKeys :=
    .array (List.forall_mem_singleton.mpr (hscalars (by decide)))
  refine .object (by decide) ?_
  simpa using ⟨hscalars (by decide), hgroups, hsensor⟩

/-- The array of the fragment is reported first, the array in an array not at all. -/
theorem mixed_arrays_readings :
    let config := Config.small false
    readings.DistinctKeys ∧ config.fragments.reuseIdentical = false ∧
      (config.notices readings).filter Notice.isMixed =
        [.mixedArray .null 1 .string, .mixedArray .integer 2 .null] ∧
      ∃ reports : List (Path × Deviation),
        (reports.map (·.1)).Nodup ∧
        (∀ path e, (path, e) ∈ reports ↔ path.isItem = false ∧
          ∃ items, readings.at? path = some (.array items) ∧ e.IsFirstOf items) ∧
        (config.notices readings).filter Notice.isMixed =
          reports.map fun report => report.2.notice :=
  ⟨readings_distinctKeys, rfl, by decide +kernel,
    mixed_arrays (.small false) readings_distinctKeys rfl⟩

/-- Not every array with a deviation is reported: an array that is an item of an array is not. -/
theorem mixed_item_not_reported :
    let config : Config := {}
    let document : Value := .object [("a", .array [.array [.integer 1, .string "x"]])]
    config.fragments.reuseIdentical = false ∧
      (∃ items, document.at? [.item, .key "a"] = some (.array items) ∧
        (⟨.integer, 1, .string⟩ : Deviation).IsFirstOf items) ∧
      (config.notices document).filter Notice.isMixed = [] := by
  refine ⟨rfl, ⟨[.integer 1, .string "x"], rfl, rfl, ?_, rfl, by decide⟩, by decide +kernel⟩
  intro i hi
  obtain rfl : i = 0 := Nat.lt_one_iff.mp hi
  rfl

end Config
end ContractDraft

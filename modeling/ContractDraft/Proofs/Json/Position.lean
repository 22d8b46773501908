import ContractDraft.Fragment.Path
import ContractDraft.Json.Value
import Mathlib.Data.List.Nodup

/-!
# Values and their positions

A document is only ever visited through the fields of its objects and the first items of its
arrays. This file gives that way of visiting its vocabulary:

* `Path.Apart`, for paths that do not lead through each other;
* `Value.visit_induction`, the induction that follows such a visit;
* `Value.at?`, the value that a path leads to;
* `Value.DistinctKeys`, which makes every visited value the one that its own path leads to.
-/

namespace ContractDraft

namespace Path

/-! ## Paths through each other

The path `p` leads through `q` if `q <:+ p`, because the last step of a path stands first. -/

/-- Neither path leads through the other. -/
def Apart (p q : Path) : Prop := ¬ p <:+ q ∧ ¬ q <:+ p

/-- A path that leads through `p` lies apart from all that `p` lies apart from. -/
theorem Apart.of_suffix {p q r : Path} (h : p.Apart r) (hq : p <:+ q) :
    q.Apart r := by
  refine ⟨fun hqr => h.1 (hq.trans hqr), fun hrq => ?_⟩
  rcases List.suffix_or_suffix_of_suffix hq hrq with hpr | hrp
  · exact h.1 hpr
  · exact h.2 hrp

/-- A longer path does not lead to where a shorter one ends. -/
theorem not_child_suffix (path : Path) (key : String) : ¬ path.child key <:+ path := by
  intro h
  have hlength : path.length + 1 ≤ path.length := h.length_le
  omega

theorem suffix_child (path : Path) (key : String) : path <:+ path.child key :=
  List.suffix_cons ..

theorem suffix_element (path : Path) : path <:+ path.element :=
  List.suffix_cons ..

/-- Different keys of one object lead to paths apart from each other. -/
theorem child_apart {path : Path} {k l : String} (h : k ≠ l) :
    (path.child k).Apart (path.child l) := by
  have hne : path.child k ≠ path.child l := by simpa [child] using h
  have hlength : (path.child k).length = (path.child l).length := by simp [child]
  exact ⟨fun hs => hne (hs.eq_of_length hlength), fun hs => hne (hs.eq_of_length hlength.symm).symm⟩

end Path

/-! ## Searching by a key -/

/-- Where all items differ in one respect, a search for an item in this respect finds it. -/
theorem find?_eq_of_nodup_map {α β : Type} [DecidableEq β] {f : α → β} {items : List α}
    (h : (items.map f).Nodup) {a : α} (hmem : a ∈ items) :
    items.find? (fun other => f other = f a) = some a := by
  obtain ⟨found, hfound⟩ : ∃ found, items.find? (fun other => f other = f a) = some found :=
    Option.isSome_iff_exists.mp (List.find?_isSome.mpr ⟨a, hmem, by simp⟩)
  have hsame : f found = f a := by simpa using List.find?_some hfound
  rw [hfound, List.inj_on_of_nodup_map h (List.mem_of_find?_eq_some hfound) hmem hsame]

/-! ## Induction along a visit -/

private theorem sizeOf_snd_lt_of_mem {fields : Fields} {field : String × Value}
    (h : field ∈ fields) : sizeOf field.2 < 1 + sizeOf fields := by
  have hlist : sizeOf field < sizeOf fields := List.sizeOf_lt_of_mem h
  have hpair : sizeOf field = 1 + sizeOf field.1 + sizeOf field.2 := rfl
  omega

/-- What holds of scalars and empty arrays, passes from first items to arrays and from all fields
to objects, holds of every value. -/
@[elab_as_elim]
theorem Value.visit_induction {motive : Value → Prop}
    (object : ∀ fields : Fields, (∀ field ∈ fields, motive field.2) → motive (.object fields))
    (empty : motive (.array []))
    (array : ∀ first rest, motive first → motive (.array (first :: rest)))
    (scalar : ∀ v : Value, v.isScalar = true → motive v) (v : Value) : motive v := by
  match v with
  | .object fields =>
    exact object fields fun field h =>
      have := sizeOf_snd_lt_of_mem h
      visit_induction object empty array scalar field.2
  | .array [] => exact empty
  | .array (first :: rest) =>
    exact array first rest (visit_induction object empty array scalar first)
  | .null => exact scalar _ rfl
  | .boolean _ => exact scalar _ rfl
  | .integer _ => exact scalar _ rfl
  | .decimal _ => exact scalar _ rfl
  | .string _ => exact scalar _ rfl
termination_by sizeOf v
decreasing_by
  · rwa [Value.object.sizeOf_spec]
  · simp only [Value.array.sizeOf_spec, List.cons.sizeOf_spec]
    omega

namespace Value

/-! ## Distinct keys -/

/-- No object inside the value has a key twice. This is so for every document that is read
(`distinctKeys_of_readDocument`). -/
inductive DistinctKeys : Value → Prop where
  | scalar {v : Value} : v.isScalar = true → DistinctKeys v
  | array {items : List Value} : (∀ v ∈ items, DistinctKeys v) → DistinctKeys (.array items)
  | object {fields : Fields} : (fields.map (·.1)).Nodup →
      (∀ field ∈ fields, DistinctKeys field.2) → DistinctKeys (.object fields)

theorem DistinctKeys.pair {k l : String} (h : k ≠ l) {v w : Value} (hv : DistinctKeys v)
    (hw : DistinctKeys w) : DistinctKeys (.object [(k, v), (l, w)]) :=
  .object (by simpa using h) (by simpa using ⟨hv, hw⟩)

theorem DistinctKeys.keys_nodup {fields : Fields} (h : DistinctKeys (.object fields)) :
    (fields.map (·.1)).Nodup := by
  cases h with
  | scalar h => cases h
  | object keys _ => exact keys

theorem DistinctKeys.of_mem_fields {fields : Fields} (h : DistinctKeys (.object fields))
    {field : String × Value} (hmem : field ∈ fields) : DistinctKeys field.2 := by
  cases h with
  | scalar h => cases h
  | object _ values => exact values field hmem

theorem DistinctKeys.of_mem_items {items : List Value} (h : DistinctKeys (.array items))
    {v : Value} (hmem : v ∈ items) : DistinctKeys v := by
  cases h with
  | scalar h => cases h
  | array values => exact values v hmem

/-! ## The value at a path -/

/-- The value that a path leads to: a key leads to its field, an item step to the first item. -/
def at? (document : Value) : Path → Option Value
  | [] => some document
  | .key key :: path =>
    match document.at? path with
    | some (.object fields) => (fields.find? fun field => field.1 = key).map (·.2)
    | _ => none
  | .item :: path =>
    match document.at? path with
    | some (.array items) => items.head?
    | _ => none

@[simp] theorem at?_root (document : Value) : document.at? .root = some document := rfl

theorem at?_element {document first : Value} {path : Path} {rest : List Value}
    (h : document.at? path = some (.array (first :: rest))) :
    document.at? path.element = some first := by
  simp only [Path.element, at?, h, List.head?_cons]

/-- Among distinct keys a search finds the very field it is made for. -/
theorem find?_key_of_mem {fields : Fields} (hkeys : (fields.map (·.1)).Nodup)
    {field : String × Value} (hmem : field ∈ fields) :
    fields.find? (fun other => other.1 = field.1) = some field :=
  find?_eq_of_nodup_map hkeys hmem

theorem at?_child {document : Value} {path : Path} {fields : Fields}
    (h : document.at? path = some (.object fields)) (hkeys : (fields.map (·.1)).Nodup)
    {field : String × Value} (hmem : field ∈ fields) :
    document.at? (path.child field.1) = some field.2 := by
  simp only [Path.child, at?, h, find?_key_of_mem hkeys hmem, Option.map_some]

/-- Inside a document of distinct keys every path leads to a value of distinct keys. -/
theorem DistinctKeys.at? {document : Value} (h : document.DistinctKeys) {path : Path} {v : Value}
    (hv : document.at? path = some v) : v.DistinctKeys := by
  induction path generalizing v with
  | nil => exact Option.some.inj hv ▸ h
  | cons step path ih =>
    cases step with
    | key key =>
      simp only [Value.at?] at hv
      split at hv
      · rename_i fields hfields
        obtain ⟨field, hfind, rfl⟩ := Option.map_eq_some_iff.mp hv
        exact (ih hfields).of_mem_fields (List.mem_of_find?_eq_some hfind)
      · cases hv
    | item =>
      simp only [Value.at?] at hv
      split at hv
      · rename_i items hitems
        exact (ih hitems).of_mem_items (List.mem_of_head? hv)
      · cases hv

end Value
end ContractDraft

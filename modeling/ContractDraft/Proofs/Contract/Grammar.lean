import ContractDraft.Proofs.Contract.Draft
import ContractDraft.Proofs.Fragment.Plan

/-!
# The grammar of drafts

Which lists of statements a draft may hold. An object scope is a row of items under pairwise
different keys, an array scope holds at most one item, without a key; whatever is opened is closed
in the same way, and repeating arrays stand under keys only. All bounds are one pair, on which the
grammar depends.

`Drafter.wellFormed` derives the statements of every value from the grammar, whatever the plan;
`Config.draft_wellFormed` all blocks of a draft.
-/

namespace ContractDraft

/-! ## Items and scopes -/

mutual

/-- The statements of one item, which a field holds under a key or which stands in an array. -/
inductive ItemStatements (bounds : ArrayBounds) : Option String → List Statement → Prop where
  | scalar {key : Option String} {matcher : Matcher} :
      ItemStatements bounds key [.scalar key matcher]
  | emptyArray {key : Option String} : ItemStatements bounds key [.emptyArray key]
  | reference {key : Option String} {name : String} :
      ItemStatements bounds key [.referenceOpen key, .reference name, .referenceClose]
  | object {key : Option String} {s : List Statement} : ScopeStatements bounds .object s →
      ItemStatements bounds key (.objectOpen key :: s ++ [.objectClose])
  | array {s : List Statement} : ScopeStatements bounds .array s →
      ItemStatements bounds none (.arrayOpen :: s ++ [.arrayClose])
  | repeatMatcher {key : String} {matcher : Matcher} :
      ItemStatements bounds (some key) [.repeatMatcher key matcher bounds]
  | repeatFragment {key name : String} :
      ItemStatements bounds (some key) [.repeatFragment key name bounds]
  | repeatScope {key : String} {nesting : Nesting} {s : List Statement} :
      ScopeStatements bounds nesting s →
      ItemStatements bounds (some key)
        (.repeatOpen key nesting bounds :: s ++ [.repeatClose nesting])

/-- The statements inside an object or an array. -/
inductive ScopeStatements (bounds : ArrayBounds) : Nesting → List Statement → Prop where
  | object {keys : List String} {s : List Statement} : keys.Nodup →
      FieldStatements bounds keys s → ScopeStatements bounds .object s
  | empty : ScopeStatements bounds .array []
  | array {s : List Statement} : ItemStatements bounds none s → ScopeStatements bounds .array s

/-- The statements of a row of items under the given keys. -/
inductive FieldStatements (bounds : ArrayBounds) : List String → List Statement → Prop where
  | nil : FieldStatements bounds [] []
  | cons {key : String} {keys : List String} {s t : List Statement} :
      ItemStatements bounds (some key) s → FieldStatements bounds keys t →
      FieldStatements bounds (key :: keys) (s ++ t)

end

/-! ## Blocks -/

/-- The statements of the fragment called `name`. -/
inductive FragmentStatements (bounds : ArrayBounds) (name : String) : List Statement → Prop where
  | scope {s : List Statement} : ScopeStatements bounds .object s →
      FragmentStatements bounds name (.fragmentOpen name :: s ++ [.fragmentClose])

/-- The statements of a document called `name`. -/
inductive RootStatements (bounds : ArrayBounds) (name : String) : List Statement → Prop where
  | scope {s : List Statement} : ScopeStatements bounds .object s →
      RootStatements bounds name (.rootOpen name :: s ++ [.rootClose])
  | scalar {matcher : Matcher} :
      RootStatements bounds name [.rootOpen name, .scalar none matcher, .rootClose]
  | array {nesting : Nesting} {s : List Statement} : ScopeStatements bounds nesting s →
      RootStatements bounds name
        (.rootArrayOpen name nesting bounds :: s ++ [.rootArrayClose nesting])
  | arrayMatcher {matcher : Matcher} :
      RootStatements bounds name [.rootArrayMatcher name matcher bounds]
  | emptyArray : RootStatements bounds name [.rootEmptyArray name]

/-- Items under keys do not begin with a scalar that has none. -/
theorem FieldStatements.ne_scalar_none {bounds : ArrayBounds} {keys : List String}
    {s : List Statement} (h : FieldStatements bounds keys s) (matcher : Matcher)
    (rest : List Statement) : s ≠ .scalar none matcher :: rest := by
  cases h with
  | nil => simp
  | cons hitem _ => cases hitem <;> simp

namespace Drafter

/-! ## Drafted values -/

/-- The statements for a value are those of an item, wherever it stands, and what they stand around
fills a scope of the value's kind. -/
structure WellFormed (d : Drafter) (v : Value) : Prop where
  item : ∀ key path, ItemStatements d.bounds key (d.statements key path v)
  scope : ∀ nesting, v.nesting? = some nesting →
    ∀ path, ScopeStatements d.bounds nesting (d.contents path v)

variable (d : Drafter)

theorem fieldStatements_contents {fields : Fields} (h : ∀ field ∈ fields, d.WellFormed field.2)
    (path : Path) :
    FieldStatements d.bounds (fields.map (·.1)) (d.contents path (.object fields)) := by
  induction fields with
  | nil =>
    rw [contents_object_nil]
    exact .nil
  | cons field fields ih =>
    rw [contents_object_cons]
    have hhead := (h field (List.mem_cons_self ..)).item (some field.1) (path.child field.1)
    exact .cons hhead (ih fun other hmem => h other (List.mem_cons_of_mem _ hmem))

/-- An array under a key is one item, if its first item is well-formed. -/
theorem itemStatements_array {first : Value} (h : d.WellFormed first) (key : String) (path : Path)
    (rest : List Value) :
    ItemStatements d.bounds (some key) (d.statements (some key) path (.array (first :: rest))) := by
  cases first with
  | object fields =>
    cases hname : d.plan.nameAt? path.element with
    | some name =>
      rw [statements_objects_of_some hname]
      exact .repeatFragment
    | none =>
      rw [statements_objects_of_none hname]
      exact .repeatScope (h.scope .object rfl path.element)
  | array inner =>
    rw [statements_arrays]
    exact .repeatScope (h.scope .array rfl path.element)
  | _ =>
    rw [statements_scalars d rfl]
    exact .repeatMatcher

/-- What is drafted for a value of distinct keys is derived from the grammar. -/
theorem wellFormed (v : Value) (hdistinct : v.DistinctKeys) : d.WellFormed v := by
  induction v using Value.visit_induction with
  | object fields ih =>
    have hfields (path : Path) :
        ScopeStatements d.bounds .object (d.contents path (.object fields)) := by
      have hvalues : ∀ field ∈ fields, d.WellFormed field.2 := fun field hmem =>
        ih field hmem (hdistinct.of_mem_fields hmem)
      exact .object hdistinct.keys_nodup (d.fieldStatements_contents hvalues path)
    refine ⟨fun key path => ?_, fun nesting hnesting path => ?_⟩
    · cases hname : d.plan.nameAt? path with
      | some name =>
        rw [statements_object_of_some hname]
        exact .reference
      | none =>
        rw [statements_object_of_none hname]
        exact .object (hfields path)
    · cases hnesting
      exact hfields path
  | empty =>
    refine ⟨fun key path => ?_, fun nesting hnesting path => ?_⟩
    · rw [statements_empty]
      exact .emptyArray
    · cases hnesting
      rw [contents_array_nil]
      exact .empty
  | array first rest ih =>
    have hfirst := ih (hdistinct.of_mem_items (List.mem_cons_self ..))
    have hscope (path : Path) :
        ScopeStatements d.bounds .array (d.contents path (.array (first :: rest))) := by
      rw [contents_array_cons]
      exact .array (hfirst.item none path.element)
    refine ⟨fun key path => ?_, fun nesting hnesting path => ?_⟩
    · cases key with
      | none =>
        rw [statements_item_array]
        exact .array (hscope path)
      | some key => exact d.itemStatements_array hfirst key path rest
    · cases hnesting
      exact hscope path
  | scalar v hv =>
    refine ⟨fun key path => ?_, fun nesting hnesting => ?_⟩
    · rw [statements_scalar d hv]
      exact .scalar
    · rw [Value.nesting?_eq_none_iff.mpr hv] at hnesting
      cases hnesting

/-! ## Drafted blocks -/

/-- The body of a fragment is an object scope. -/
theorem fragmentStatements {f : Decision} (hdistinct : (Value.object f.fields).DistinctKeys) :
    FragmentStatements d.bounds f.name (d.fragmentBlock f).statements := by
  rw [statements_fragmentBlock]
  exact .scope ((d.wellFormed _ hdistinct).scope .object rfl f.path)

theorem rootStatements_wellFormed {document : Value} (hdistinct : document.DistinctKeys) :
    RootStatements d.bounds d.rootName (d.rootStatements document) := by
  cases document using Value.visit_induction with
  | object fields _ =>
    rw [rootStatements_object]
    exact .scope ((d.wellFormed _ hdistinct).scope .object rfl .root)
  | empty =>
    rw [rootStatements_empty]
    exact .emptyArray
  | array first rest _ =>
    have hfirst := d.wellFormed first (hdistinct.of_mem_items (List.mem_cons_self ..))
    cases hnesting : first.nesting? with
    | some nesting =>
      rw [rootStatements_nested d hnesting]
      exact .array (hfirst.scope nesting hnesting _)
    | none =>
      rw [rootStatements_scalars d (Value.nesting?_eq_none_iff.mp hnesting)]
      exact .arrayMatcher
  | scalar v hv =>
    rw [rootStatements_scalar d hv]
    exact .scalar

/-- A matcher without a key stands between the opening and the closing of a document exactly if the
document is a scalar. -/
theorem rootStatements_eq_scalar_iff {document : Value} (hdistinct : document.DistinctKeys) :
    (∃ matcher, d.rootStatements document =
      [.rootOpen d.rootName, .scalar none matcher, .rootClose]) ↔ document.isScalar = true := by
  refine ⟨?_, fun hscalar => ⟨d.matcher none document, rootStatements_scalar d hscalar⟩⟩
  rintro ⟨matcher, h⟩
  cases document using Value.visit_induction with
  | object fields _ =>
    have hfields := d.fieldStatements_contents
      (fun field hmem => d.wellFormed field.2 (hdistinct.of_mem_fields hmem)) .root
    rw [rootStatements_object] at h
    have hbody : d.contents .root (.object fields) ++ [.rootClose] =
        [.scalar none matcher] ++ [.rootClose] := (List.cons.inj h).2
    exact absurd (List.append_cancel_right hbody) (hfields.ne_scalar_none matcher [])
  | empty => simp [rootStatements_empty] at h
  | array first rest _ =>
    cases hnesting : first.nesting? with
    | some nesting => simp [rootStatements_nested d hnesting] at h
    | none => simp [rootStatements_scalars d (Value.nesting?_eq_none_iff.mp hnesting)] at h
  | scalar v hv => exact hv

end Drafter

/-- Raised bounds show as many examples as the least length asks for, and at least one. -/
theorem ArrayBounds.max_le_normalized (bounds : ArrayBounds) :
    max bounds.normalized.minLen 1 ≤ bounds.normalized.examples := by
  have htoNat (a b : UInt64) : (max a b).toNat = max a.toNat b.toNat := by
    simp only [max, UInt64.le_iff_toNat_le, apply_ite UInt64.toNat]
  show max bounds.minLen 1 ≤ max (max bounds.examples bounds.minLen) 1
  rw [UInt64.le_iff_toNat_le, htoNat, htoNat, htoNat]
  omega

/-- Every block of a draft is derived from the grammar, whatever plan has been made for the document:
fragments are object scopes, and the document is a scope, a matcher, or empty. The one pair of bounds
in all of them shows as many examples as its least length asks for, and at least one. A matcher
without a key stands in the place of the document's scope exactly if the document is a scalar. -/
theorem Config.draft_wellFormed (config : Config) (planner : Planner) {document : Value}
    (hdistinct : document.DistinctKeys) :
    let bounds := config.arrays.normalized
    let draft := (config.drafter (planner.plan document)).draft document
    max bounds.minLen 1 ≤ bounds.examples ∧
      (∀ block ∈ draft.fragments, FragmentStatements bounds block.name block.statements) ∧
      RootStatements bounds config.rootName draft.root.statements ∧
      ((∃ matcher, draft.root.statements =
        [.rootOpen config.rootName, .scalar none matcher, .rootClose]) ↔
          document.isScalar = true) := by
  intro bounds draft
  have hsound := planner.plan_sound hdistinct
  let d := config.drafter (planner.plan document)
  refine ⟨config.arrays.max_le_normalized, fun block hblock => ?_,
    d.rootStatements_wellFormed hdistinct, d.rootStatements_eq_scalar_iff hdistinct⟩
  obtain ⟨f, hf, rfl⟩ := List.mem_map.mp hblock
  exact d.fragmentStatements (hdistinct.at? (hsound.located f (Plan.mem_fragments.mp hf).1))

/-- The draft of an order, of whose parties one is a repeating array that refers to the fragment of
the other. -/
theorem Config.draft_wellFormed_order : Value.order.DistinctKeys ∧
    ((Config.small true).draft .order).root.statements =
      [.rootOpen "body", .referenceOpen (some "billing"), .reference "billing", .referenceClose,
        .repeatFragment "delivery" "billing" {}, .rootClose] ∧
    RootStatements {} "body" ((Config.small true).draft .order).root.statements ∧
    ∀ block ∈ ((Config.small true).draft .order).fragments,
      FragmentStatements {} block.name block.statements := by
  have hall := draft_wellFormed (Config.small true) (Config.small true).planner
    Value.order_distinctKeys
  exact ⟨Value.order_distinctKeys, by decide +kernel, hall.2.2.1, hall.2.1⟩

end ContractDraft

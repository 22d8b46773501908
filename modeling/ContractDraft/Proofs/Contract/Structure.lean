import ContractDraft.Proofs.Contract.Draft
import ContractDraft.Proofs.Json.Correspondence
import ContractDraft.Proofs.Shape.Structure

/-!
# Drafts of values that correspond

Without references, which depend on paths, the statements for a value depend on its keys, its
nesting and the matchers of its scalars only. So values that correspond call for the same
statements, as far as their matchers look alike (`Drafter.outline_eq_of_corresponds`). Values of one
structure have matchers that look alike apart from examples.
-/

namespace ContractDraft

/-! ## Statements as far as their matchers are seen -/

/-- The statement with its matcher replaced. -/
def Statement.mapMatcher (f : Matcher → Matcher) : Statement → Statement
  | .rootArrayMatcher name matcher bounds => .rootArrayMatcher name (f matcher) bounds
  | .repeatMatcher key matcher bounds => .repeatMatcher key (f matcher) bounds
  | .scalar key matcher => .scalar key (f matcher)
  | s => s

/-- The matcher without its example. -/
def Matcher.withoutSample (m : Matcher) : Matcher := { m with sample := none }

/-- The statement without the example of its matcher. -/
def Statement.withoutSample : Statement → Statement
  | .rootArrayMatcher name matcher bounds => .rootArrayMatcher name matcher.withoutSample bounds
  | .repeatMatcher key matcher bounds => .repeatMatcher key matcher.withoutSample bounds
  | .scalar key matcher => .scalar key matcher.withoutSample
  | s => s

theorem Statement.mapMatcher_withoutSample :
    mapMatcher Matcher.withoutSample = Statement.withoutSample := by
  funext s
  cases s <;> rfl

/-- What surrounds a list is viewed on its own. -/
theorem map_enclosed (view : Statement → Statement) (opening closing : Statement)
    (s : List Statement) :
    (opening :: s ++ [closing]).map view = view opening :: s.map view ++ [view closing] := by
  rw [List.map_append, List.map_cons, List.map_singleton]

/-! ## Correspondence and structure -/

/-- Values that correspond are nested in the same way. -/
theorem Corresponds.nesting?_eq {same : Option String → Value → Value → Prop}
    {key : Option String} {v w : Value} (h : Corresponds same key v w) :
    v.nesting? = w.nesting? := by
  cases h with
  | scalar hv hw _ => rw [Value.nesting?_eq_none_iff.mpr hv, Value.nesting?_eq_none_iff.mpr hw]
  | _ => rfl

section structures

variable {policy : Policy} {same : Option String → Value → Value → Prop}

mutual

/-- Values of one structure correspond, if scalars of one shape and emptiness are related. -/
theorem Alike.corresponds (hsame : ∀ key v w, v.isScalar = true → w.isScalar = true →
      policy.classifyOrFallback ⟨v, key⟩ = policy.classifyOrFallback ⟨w, key⟩ →
      v.isEmptyString = w.isEmptyString → same key v w) {key : Option String} {v w : Value}
    (h : Alike policy key v w) : Corresponds same key v w :=
  match h with
  | .scalar hv hw hshape hblank => .scalar hv hw (hsame _ _ _ hv hw hshape hblank)
  | .empty => .empty
  | .array hitem => .array (hitem.corresponds hsame)
  | .object hfields => .object (hfields.corresponding hsame)

/-- Fields that look alike correspond as far as scalars of one shape do. -/
theorem AlikeFields.corresponding (hsame : ∀ key v w, v.isScalar = true → w.isScalar = true →
      policy.classifyOrFallback ⟨v, key⟩ = policy.classifyOrFallback ⟨w, key⟩ →
      v.isEmptyString = w.isEmptyString → same key v w) {fields others : Fields}
    (h : AlikeFields policy fields others) : CorrespondingFields same fields others :=
  match h with
  | .nil => .nil
  | .cons hvalue hrest => .cons (hvalue.corresponds hsame) (hrest.corresponding hsame)

end

mutual

/-- Values that correspond have one structure, if related scalars have one shape and emptiness. -/
theorem Corresponds.alike (hsame : ∀ key v w, v.isScalar = true → w.isScalar = true →
      same key v w → policy.classifyOrFallback ⟨v, key⟩ = policy.classifyOrFallback ⟨w, key⟩ ∧
        v.isEmptyString = w.isEmptyString) {key : Option String} {v w : Value}
    (h : Corresponds same key v w) : Alike policy key v w :=
  match h with
  | .scalar hv hw hrelated =>
    .scalar hv hw (hsame _ _ _ hv hw hrelated).1 (hsame _ _ _ hv hw hrelated).2
  | .empty => .empty
  | .array hitem => .array (hitem.alike hsame)
  | .object hfields => .object (hfields.alike hsame)

/-- Fields that correspond look alike as far as corresponding scalars have one shape. -/
theorem CorrespondingFields.alike (hsame : ∀ key v w, v.isScalar = true → w.isScalar = true →
      same key v w → policy.classifyOrFallback ⟨v, key⟩ = policy.classifyOrFallback ⟨w, key⟩ ∧
        v.isEmptyString = w.isEmptyString) {fields others : Fields}
    (h : CorrespondingFields same fields others) : AlikeFields policy fields others :=
  match h with
  | .nil => .nil
  | .cons hvalue hrest => .cons (hvalue.alike hsame) (hrest.alike hsame)

end

end structures

namespace Drafter

variable (d : Drafter) (f : Matcher → Matcher)

/-- The statements for a value without references, as far as `f` shows of matchers. -/
def outline (key : Option String) (path : Path) (v : Value) : List Statement :=
  (d.inline.statements key path v).map (Statement.mapMatcher f)

/-- What the outline of an object or an array stands around. -/
def outlineContents (path : Path) (v : Value) : List Statement :=
  (d.inline.contents path v).map (Statement.mapMatcher f)

/-! ## Outlines case by case -/

theorem outline_object (key : Option String) (path : Path) (fields : Fields) :
    d.outline f key path (.object fields) =
      .objectOpen key :: d.outlineContents f path (.object fields) ++ [.objectClose] := by
  rw [outline, statements_object_of_none (d.inline_nameAt? path), map_enclosed]
  rfl

theorem outline_empty (key : Option String) (path : Path) :
    d.outline f key path (.array []) = [.emptyArray key] := by
  rw [outline, statements_empty]
  rfl

/-- An array that is an item stands between its brackets. -/
theorem outline_item_array (path : Path) (first : Value) (rest : List Value) :
    d.outline f none path (.array (first :: rest)) =
      .arrayOpen :: d.outlineContents f path (.array (first :: rest)) ++ [.arrayClose] := by
  rw [outline, statements_item_array, map_enclosed]
  rfl

/-- An array of arrays or objects repeats the contents of its first item. -/
theorem outline_nested {first : Value} {nesting : Nesting} (h : first.nesting? = some nesting)
    (key : String) (path : Path) (rest : List Value) :
    d.outline f (some key) path (.array (first :: rest)) =
      .repeatOpen key nesting d.bounds :: d.outlineContents f path.element first ++
        [.repeatClose nesting] := by
  rw [outline, statements_nested _ (d.inline_nameAt? _) h, map_enclosed]
  rfl

/-- An array of scalars repeats the matcher of its first item. -/
theorem outline_scalars {first : Value} (h : first.nesting? = none) (key : String) (path : Path)
    (rest : List Value) :
    d.outline f (some key) path (.array (first :: rest)) =
      [.repeatMatcher key (f (d.matcher none first)) d.bounds] := by
  rw [outline, statements_scalars _ (Value.nesting?_eq_none_iff.mp h)]
  rfl

theorem outline_scalar {v : Value} (h : v.isScalar = true) (key : Option String) (path : Path) :
    d.outline f key path v = [.scalar key (f (d.matcher key v))] := by
  rw [outline, statements_scalar _ h]
  rfl

theorem outlineContents_object_nil (path : Path) : d.outlineContents f path (.object []) = [] := by
  rw [outlineContents, contents_object_nil, List.map_nil]

theorem outlineContents_object_cons (path : Path) (field : String × Value) (rest : Fields) :
    d.outlineContents f path (.object (field :: rest)) =
      d.outline f (some field.1) (path.child field.1) field.2 ++
        d.outlineContents f path (.object rest) := by
  rw [outlineContents, contents_object_cons, List.map_append]
  rfl

theorem outlineContents_array_nil (path : Path) : d.outlineContents f path (.array []) = [] := by
  rw [outlineContents, contents_array_nil, List.map_nil]

/-- Of the items of an array only the first is outlined. -/
theorem outlineContents_array_cons (path : Path) (first : Value) (rest : List Value) :
    d.outlineContents f path (.array (first :: rest)) = d.outline f none path.element first := by
  rw [outlineContents, contents_array_cons]
  rfl

theorem outlineContents_scalar {v : Value} (h : v.isScalar = true) (path : Path) :
    d.outlineContents f path v = [] := by
  rw [outlineContents, contents_scalar _ h, List.map_nil]

/-! ## Values that correspond -/

/-- Two scalars that `key` holds have matchers that look alike. -/
def Same (key : Option String) (v w : Value) : Prop := f (d.matcher key v) = f (d.matcher key w)

/-- Two values have one outline, wherever they stand. -/
structure SameOutline (key : Option String) (v w : Value) : Prop where
  outline : ∀ path other, d.outline f key path v = d.outline f key other w
  contents : ∀ path other, d.outlineContents f path v = d.outlineContents f other w

variable {d f}

/-- Objects whose fields have the same outlines have the same contents. -/
theorem outlineContents_object_eq {fields : Fields}
    (ih : ∀ field ∈ fields, ∀ (key : Option String) (w : Value),
      Corresponds (d.Same f) key field.2 w → d.SameOutline f key field.2 w)
    {others : Fields} (h : CorrespondingFields (d.Same f) fields others) (path other : Path) :
    d.outlineContents f path (.object fields) = d.outlineContents f other (.object others) := by
  induction fields generalizing others with
  | nil =>
    cases h
    rw [outlineContents_object_nil, outlineContents_object_nil]
  | cons field fields ihfields =>
    cases h with
    | cons hvalue hrest =>
      have hhead := (ih _ (List.mem_cons_self ..) _ _ hvalue).outline
      have htail := ihfields (fun field hmem => ih field (List.mem_cons_of_mem _ hmem)) hrest
      rw [outlineContents_object_cons, outlineContents_object_cons, hhead, htail]

/-- An array under a key is outlined from its first item. -/
theorem outline_items_eq {v w : Value} (hitem : Corresponds (d.Same f) none v w)
    (h : d.SameOutline f none v w) (key : String) (rest others : List Value) (path other : Path) :
    d.outline f (some key) path (.array (v :: rest)) =
      d.outline f (some key) other (.array (w :: others)) := by
  have hnestings := Corresponds.nesting?_eq hitem
  cases hnesting : v.nesting? with
  | some nesting =>
    rw [outline_nested d f hnesting, outline_nested d f (hnestings ▸ hnesting), h.contents]
  | none =>
    cases hitem with
    | scalar _ _ hsame =>
      have hmatchers : f (d.matcher none v) = f (d.matcher none w) := hsame
      rw [outline_scalars d f hnesting, outline_scalars d f (hnestings ▸ hnesting), hmatchers]
    | _ => cases hnesting

/-- Values that correspond have one outline. -/
theorem outline_eq_of_corresponds (v : Value) : ∀ (key : Option String) (w : Value),
    Corresponds (d.Same f) key v w → d.SameOutline f key v w := by
  induction v using Value.visit_induction with
  | object fields ih =>
    intro key w h
    cases h with
    | scalar hv => cases hv
    | object hfields =>
      have hcontents := outlineContents_object_eq ih hfields
      refine ⟨fun path other => ?_, hcontents⟩
      rw [outline_object, outline_object, hcontents path other]
  | empty =>
    intro key w h
    cases h with
    | scalar hv => cases hv
    | empty =>
      refine ⟨fun path other => ?_, fun path other => ?_⟩
      · rw [outline_empty, outline_empty]
      · rw [outlineContents_array_nil, outlineContents_array_nil]
  | array first rest ih =>
    intro key w h
    cases h with
    | scalar hv => cases hv
    | @array _ _ w _ others hitem =>
      have hfirst := ih none w hitem
      have hcontents (path other : Path) : d.outlineContents f path (.array (first :: rest)) =
          d.outlineContents f other (.array (w :: others)) := by
        rw [outlineContents_array_cons, outlineContents_array_cons]
        exact hfirst.outline _ _
      refine ⟨fun path other => ?_, hcontents⟩
      cases key with
      | none => rw [outline_item_array, outline_item_array, hcontents path other]
      | some key => exact outline_items_eq hitem hfirst key rest others path other
  | scalar v hv =>
    intro key w h
    cases h with
    | scalar _ hw hsame =>
      have hmatchers : f (d.matcher key v) = f (d.matcher key w) := hsame
      refine ⟨fun path other => ?_, fun path other => ?_⟩
      · rw [outline_scalar d f hv, outline_scalar d f hw, hmatchers]
      · rw [outlineContents_scalar d f hv, outlineContents_scalar d f hw]
    | _ => cases hv

/-! ## Values of one structure -/

/-- Without its example, a matcher says no more than the shape. -/
theorem matcher_withoutSample (d : Drafter) (key : Option String) (v : Value) :
    (d.matcher key v).withoutSample = ⟨d.policy.classifyOrFallback ⟨v, key⟩, none⟩ := by
  unfold matcher Policy.classifyOrFallback
  cases d.policy.shape? ⟨v, key⟩ with
  | some shape => rfl
  | none => rfl

/-- The statements for two values differ at most in examples, wherever the values stand. -/
structure Agree (d : Drafter) (key : Option String) (v w : Value) : Prop where
  statements : ∀ path other, (d.inline.statements key path v).map Statement.withoutSample =
    (d.inline.statements key other w).map Statement.withoutSample
  contents : ∀ path other, (d.inline.contents path v).map Statement.withoutSample =
    (d.inline.contents other w).map Statement.withoutSample

/-- Values of one structure are drafted alike. -/
theorem agree_of_alike (d : Drafter) (v : Value) (key : Option String) (w : Value)
    (h : Alike d.policy key v w) : d.Agree key v w := by
  have hsame : Corresponds (d.Same Matcher.withoutSample) key v w := by
    refine h.corresponds fun key v w _ _ hshape _ => ?_
    rw [Same, matcher_withoutSample, matcher_withoutSample, hshape]
  obtain ⟨hstatements, hcontents⟩ := outline_eq_of_corresponds v key w hsame
  unfold outline at hstatements
  unfold outlineContents at hcontents
  rw [Statement.mapMatcher_withoutSample] at hstatements hcontents
  exact ⟨hstatements, hcontents⟩

end Drafter
end ContractDraft

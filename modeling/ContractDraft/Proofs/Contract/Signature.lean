import ContractDraft.Proofs.Contract.Readback
import ContractDraft.Proofs.Shape.Standard

/-!
# Signatures are exact

Under the standard policy a signature says of an object just what its statements say without
references, except for the values of examples: whether there is an example stays visible
(`signature_eq_iff_marked_fields`). Both texts show the correspondence of two objects: the signature
by `signatureAt_eq_iff`, the statements by `Drafter.outlineContents_eq_iff`.
-/

namespace ContractDraft

/-- The matcher with `marker` in the place of its example, if it has one. -/
def Matcher.marked (marker : Literal) (m : Matcher) : Matcher :=
  { m with sample := m.sample.map fun _ => marker }

/-- The statement with `marker` in the place of every example. -/
def Statement.marked (marker : Literal) : Statement → Statement :=
  mapMatcher (Matcher.marked marker)

theorem Matcher.marked_eq_iff {marker : Literal} {m n : Matcher} :
    m.marked marker = n.marked marker ↔
      m.shape = n.shape ∧ m.sample.isSome = n.sample.isSome := by
  obtain ⟨s, a⟩ := m
  obtain ⟨t, b⟩ := n
  cases a <;> cases b <;> simp [marked]

namespace Drafter

variable {d : Drafter}

/-- Under the standard policy the example of a scalar does not depend on its shape. -/
theorem matcher_standard (hd : d.policy = .standard) {v : Value} (h : v.isScalar = true)
    (key : Option String) : d.matcher key v = ⟨v.standardShape, Literal.ofValue? v⟩ := by
  rw [matcher, hd, Policy.shape?_standard h]
  cases v with
  | array items => cases h
  | object fields => cases h
  | decimal x =>
    -- A number that no rule accepts has no example either.
    cases hx : x.isFinite <;>
      simp [Value.isFinite, Value.standardShape, Literal.ofValue?, Policy.fallback, hx]
  | _ => rfl

/-- Marked matchers of two scalars look alike exactly if the signatures of the scalars do. -/
theorem same_marked_iff (hd : d.policy = .standard) {marker : Literal} {v w : Value}
    (hv : v.isScalar = true) (hw : w.isScalar = true) (key : Option String) :
    d.Same (Matcher.marked marker) key v w ↔
      v.standardShape = w.standardShape ∧ v.isEmptyString = w.isEmptyString := by
  rw [Same, Matcher.marked_eq_iff, matcher_standard hd hv, matcher_standard hd hw]
  refine and_congr_right fun hshape => ?_
  change v.standardShape = w.standardShape at hshape
  change (Literal.ofValue? v).isSome = (Literal.ofValue? w).isSome ↔ _
  refine ⟨fun h => ?_, fun h => ?_⟩
  · rw [Value.isEmptyString_eq hv, Value.isEmptyString_eq hw, hshape, h]
  · rw [Value.isSome_ofValue? hv, Value.isSome_ofValue? hw, hshape, h]

theorem alike_iff_corresponds_marked (hd : d.policy = .standard) (marker : Literal)
    {key : Option String} {v w : Value} :
    Alike .standard key v w ↔ Corresponds (d.Same (Matcher.marked marker)) key v w := by
  refine ⟨fun h => h.corresponds fun key v w hv hw hshape hblank => ?_,
    fun h => h.alike fun key v w hv hw hsame => ?_⟩
  · rw [Policy.classifyOrFallback_standard hv, Policy.classifyOrFallback_standard hw] at hshape
    exact (same_marked_iff hd hv hw key).mpr ⟨hshape, hblank⟩
  · rw [Policy.classifyOrFallback_standard hv, Policy.classifyOrFallback_standard hw]
    exact (same_marked_iff hd hv hw key).mp hsame

end Drafter

/-- Under the standard policy, two objects have one signature exactly if their statements without
references become equal when every example is replaced by one marker. -/
theorem signature_eq_iff_marked_fields (rootName : String) (bounds : ArrayBounds) (marker : Literal)
    (path other : Path) (a b : Fields) :
    let d : Drafter := ⟨.standard, rootName, bounds, .empty⟩
    signature .standard (.object a) = signature .standard (.object b) ↔
      (d.fields path a).map (Statement.marked marker) =
        (d.fields other b).map (Statement.marked marker) := by
  intro d
  calc signature .standard (.object a) = signature .standard (.object b)
      ↔ Alike .standard none (.object a) (.object b) := signatureAt_eq_iff
    _ ↔ Corresponds (d.Same (Matcher.marked marker)) none (.object a) (.object b) :=
        Drafter.alike_iff_corresponds_marked rfl marker
    _ ↔ d.outlineContents (Matcher.marked marker) path (.object a) =
          d.outlineContents (Matcher.marked marker) other (.object b) :=
        (Drafter.outlineContents_eq_iff rfl rfl).symm

end ContractDraft

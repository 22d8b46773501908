import ContractDraft.Proofs.Contract.Signature

/-!
# Signatures and examples

A signature marks the empty strings, which have no example. Whether any other scalar has one depends
on the policy: a rule may give one shape to scalars with and without an example, or the shape that is
left for rejected scalars. Under every policy a signature settles the statements of an object but for
their examples, and it settles where examples stand exactly if scalars that look alike in signatures
all have examples or all have none (`signature_settles_examples_iff`). That is so under the standard
policy (`Policy.settlesExamples_standard`), but not under every policy (`signature_hides_example`).
-/

namespace ContractDraft

namespace Policy

/-- Whether the matcher of a sample has an example: a rule accepts it and its value can be shown. -/
def showsExample (policy : Policy) (s : Sample) : Bool :=
  (policy.shape? s).isSome && (Literal.ofValue? s.value).isSome

/-- Scalars that one key holds and that look alike in signatures all have examples, or none of them
has one. -/
def SettlesExamples (policy : Policy) : Prop :=
  ∀ (key : Option String) (v w : Value), v.isScalar = true → w.isScalar = true →
    policy.classifyOrFallback ⟨v, key⟩ = policy.classifyOrFallback ⟨w, key⟩ →
    v.isEmptyString = w.isEmptyString →
    policy.showsExample ⟨v, key⟩ = policy.showsExample ⟨w, key⟩

end Policy

namespace Drafter

variable {d : Drafter} {marker : Literal}

theorem isSome_sample_matcher (d : Drafter) (key : Option String) (v : Value) :
    (d.matcher key v).sample.isSome = d.policy.showsExample ⟨v, key⟩ := by
  unfold matcher Policy.showsExample
  cases d.policy.shape? ⟨v, key⟩ with
  | some shape => rfl
  | none => rfl

/-- Marked matchers look alike exactly if shapes and the presence of examples are the same. -/
theorem same_marked_iff_showsExample {key : Option String} {v w : Value} :
    d.Same (Matcher.marked marker) key v w ↔
      d.policy.classifyOrFallback ⟨v, key⟩ = d.policy.classifyOrFallback ⟨w, key⟩ ∧
        d.policy.showsExample ⟨v, key⟩ = d.policy.showsExample ⟨w, key⟩ := by
  have hshape (u : Value) : (d.matcher key u).shape = d.policy.classifyOrFallback ⟨u, key⟩ :=
    congrArg Matcher.shape (d.matcher_withoutSample key u)
  rw [Same, Matcher.marked_eq_iff, hshape, hshape, isSome_sample_matcher, isSome_sample_matcher]

/-- Where scalars that look alike have examples together, values of one structure are drafted alike
up to the values of examples. -/
theorem corresponds_marked_of_alike (hd : d.policy.SettlesExamples) {key : Option String}
    {v w : Value} (h : Alike d.policy key v w) :
    Corresponds (d.Same (Matcher.marked marker)) key v w :=
  h.corresponds fun key v w hv hw hshape hblank =>
    same_marked_iff_showsExample.mpr ⟨hshape, hd key v w hv hw hshape hblank⟩

/-- Every scalar under every key, or under none, is a part of some object: so if statements of
objects of one structure are the same up to the values of examples, scalars that look alike have
examples together. -/
theorem settlesExamples_of_corresponds (marker : Literal)
    (h : ∀ a b : Fields, Alike d.policy none (.object a) (.object b) →
      Corresponds (d.Same (Matcher.marked marker)) none (.object a) (.object b)) :
    d.policy.SettlesExamples := by
  intro key v w hv hw hshape hblank
  have hscalars : Alike d.policy key v w := .scalar hv hw hshape hblank
  suffices hsame : d.Same (Matcher.marked marker) key v w from
    (same_marked_iff_showsExample.mp hsame).2
  cases key with
  | some key =>
    have hobjects := h [(key, v)] [(key, w)] (.object (.cons hscalars .nil))
    exact hobjects.fields.value.related hv
  | none =>
    -- A scalar without a key is the item of an array.
    have hobjects := h [("", .array [v])] [("", .array [w])]
      (.object (.cons (.array hscalars) .nil))
    exact hobjects.fields.value.item.related hv

end Drafter

/-- The standard policy settles examples: an example is missing where the shape or the mark says
so. -/
theorem Policy.settlesExamples_standard : Policy.standard.SettlesExamples := by
  let d : Drafter := ⟨.standard, "", {}, .empty⟩
  refine Drafter.settlesExamples_of_corresponds (d := d) (.boolean true) fun a b h => ?_
  exact (Drafter.alike_iff_corresponds_marked rfl _).mp h

/-- Under every policy, objects of one signature have the same statements without references, up to
examples. Examples stand at the same places of all such objects exactly if the policy settles
examples. -/
theorem signature_settles_examples_iff (policy : Policy) (rootName : String)
    (bounds : ArrayBounds) (marker : Literal) (path other : Path) :
    let d : Drafter := ⟨policy, rootName, bounds, .empty⟩
    (∀ a b : Fields, signature policy (.object a) = signature policy (.object b) →
      (d.fields path a).map Statement.withoutSample =
        (d.fields other b).map Statement.withoutSample) ∧
    ((∀ a b : Fields, signature policy (.object a) = signature policy (.object b) →
      (d.fields path a).map (Statement.marked marker) =
        (d.fields other b).map (Statement.marked marker)) ↔ policy.SettlesExamples) := by
  intro d
  refine ⟨fun a b h => ?_, fun h => ?_, fun h a b hsignature => ?_⟩
  · exact (d.agree_of_alike (.object a) none (.object b) (signatureAt_eq_iff.mp h)).contents
      path other
  · refine Drafter.settlesExamples_of_corresponds (d := d) marker fun a b halike => ?_
    exact (Drafter.outlineContents_eq_iff rfl rfl).mp (h a b (signatureAt_eq_iff.mpr halike))
  · have halike : Alike d.policy none (.object a) (.object b) := signatureAt_eq_iff.mp hsignature
    exact (Drafter.outlineContents_eq_iff rfl rfl).mpr
      (Drafter.corresponds_marked_of_alike (d := d) h halike)

/-- A rule for all numbers gives one shape to numbers with an example and to numbers that are not
finite, which have none. The signature does not tell them apart, and with sharing the second object
is described by the fragment of the first, example and all. -/
theorem signature_hides_example :
    let anyNumber : Rule := ⟨"any-number", fun s =>
      if s.value.kind = .integer ∨ s.value.kind = .decimal then some .number else none⟩
    let policy := Policy.standard.prepend anyNumber
    let d : Drafter := ⟨policy, "body", {}, .empty⟩
    let a : Fields := [("n", .integer 1)]
    let b : Fields := [("n", .decimal (.infinity false))]
    let planner : Planner := ⟨{ minFields := 0, reuseIdentical := true }, policy, "body"⟩
    signature policy (.object a) = signature policy (.object b) ∧
      (d.fields .root a).map (Statement.marked (.boolean true)) ≠
        (d.fields .root b).map (Statement.marked (.boolean true)) ∧
      (planner.plan (.object [("a", .object a), ("b", .object b)])).nameAt? (Path.root.child "b") =
        some "a" := by
  decide +kernel

end ContractDraft

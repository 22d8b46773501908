import ContractDraft.Proofs.Contract.Draft
import Mathlib.Logic.Relation

/-!
# Inlining references

A reference can be replaced by the body of the fragment it names. `Replaces` is one replacement,
anywhere in a list of statements; `InlinesTo` says that replacing ends in whatever order it is done,
and always with the same list. Both follow from `Expands`, which takes a list apart from the front
and counts the replacements that it calls for: every replacement uses up exactly one of them
(`Expands.replace`).
-/

namespace ContractDraft

open Relation (ReflTransGen)

/-! ## Replacements -/

/-- The statement takes no part in a reference. -/
def Statement.isPlain : Statement → Bool
  | .referenceOpen _ | .reference _ | .referenceClose | .repeatFragment .. => false
  | _ => true

/-- There is a fragment called `name` with `body` between its opening and its closing. -/
def Defines (fragments : List Block) (name : String) (body : List Statement) : Prop :=
  ∃ block ∈ fragments, block.name = name ∧
    block.statements = .fragmentOpen name :: body ++ [.fragmentClose]

/-- No name has two bodies. -/
def Unambiguous (fragments : List Block) : Prop :=
  ∀ name body other, Defines fragments name body → Defines fragments name other → body = other

/-- A reference, and what stands in its place after a replacement. -/
inductive Unfolds (fragments : List Block) : List Statement → List Statement → Prop where
  | object {key : Option String} {name : String} {body : List Statement} :
      Defines fragments name body →
      Unfolds fragments [.referenceOpen key, .reference name, .referenceClose]
        (.objectOpen key :: body ++ [.objectClose])
  | items {key name : String} {bounds : ArrayBounds} {body : List Statement} :
      Defines fragments name body →
      Unfolds fragments [.repeatFragment key name bounds]
        (.repeatOpen key .object bounds :: body ++ [.repeatClose .object])

/-- One replacement of a reference. -/
inductive Replaces (fragments : List Block) : List Statement → List Statement → Prop where
  | within {redex result : List Statement} (before after : List Statement) :
      Unfolds fragments redex result →
      Replaces fragments (before ++ redex ++ after) (before ++ result ++ after)

/-- Replacing one reference of `s` after the other ends, in whatever order this is done, and always
with `t`, in which no reference is left. -/
structure InlinesTo (fragments : List Block) (s t : List Statement) : Prop where
  ends : Acc (fun after before => Replaces fragments before after) s
  reaches : ReflTransGen (Replaces fragments) s t
  unique : ∀ u, ReflTransGen (Replaces fragments) s u → (∀ v, ¬ Replaces fragments u v) → u = t
  resolved : ∀ x ∈ t, x.isPlain = true

/-! ## Counted expansion -/

/-- Replacing all references of `s`, also those in the bodies of fragments, takes `n` replacements
and gives `t`. -/
inductive Expands (fragments : List Block) : ℕ → List Statement → List Statement → Prop where
  | nil : Expands fragments 0 [] []
  | plain {n : ℕ} {x : Statement} {s t : List Statement} :
      x.isPlain = true → Expands fragments n s t → Expands fragments n (x :: s) (x :: t)
  | object {m n : ℕ} {key : Option String} {name : String} {body s t u : List Statement} :
      Defines fragments name body → Expands fragments m body u → Expands fragments n s t →
      Expands fragments (m + n + 1)
        (.referenceOpen key :: .reference name :: .referenceClose :: s)
        (.objectOpen key :: u ++ .objectClose :: t)
  | items {m n : ℕ} {key name : String} {bounds : ArrayBounds} {body s t u : List Statement} :
      Defines fragments name body → Expands fragments m body u → Expands fragments n s t →
      Expands fragments (m + n + 1) (.repeatFragment key name bounds :: s)
        (.repeatOpen key .object bounds :: u ++ .repeatClose .object :: t)

namespace Expands

variable {fragments : List Block}

theorem cast {m n : ℕ} (h : m = n) {s t : List Statement} (hs : Expands fragments m s t) :
    Expands fragments n s t :=
  h ▸ hs

theorem append {m n : ℕ} {a b t u : List Statement} (ha : Expands fragments m a t)
    (hb : Expands fragments n b u) : Expands fragments (m + n) (a ++ b) (t ++ u) := by
  induction ha with
  | nil => exact hb.cast (by omega)
  | plain hx _ ih => exact .plain hx ih
  | object hdefines hbody _ _ ih =>
    simp only [List.cons_append, List.append_assoc]
    exact (Expands.object hdefines hbody ih).cast (by omega)
  | items hdefines hbody _ _ ih =>
    simp only [List.cons_append, List.append_assoc]
    exact (Expands.items hdefines hbody ih).cast (by omega)

/-- Two plain statements around a list stay where they are. -/
theorem enclose {n : ℕ} {opening closing : Statement} {s t : List Statement}
    (ho : opening.isPlain = true) (hc : closing.isPlain = true) (h : Expands fragments n s t) :
    Expands fragments n (opening :: s ++ [closing]) (opening :: t ++ [closing]) :=
  .plain ho (h.append (.plain hc .nil))

/-- What remains of an expansion behind a statement that does not stand inside a reference. -/
theorem split {n : ℕ} {x : Statement} (hname : ∀ name, x ≠ .reference name)
    (hclose : x ≠ .referenceClose) {a b t : List Statement}
    (h : Expands fragments n (a ++ x :: b) t) :
    ∃ k m u v, k + m = n ∧ u ++ v = t ∧ Expands fragments k a u ∧
      Expands fragments m (x :: b) v := by
  generalize hs : a ++ x :: b = s at h
  induction h generalizing a with
  | nil => simp at hs
  | plain hy hrest ih =>
    rcases a with _ | ⟨y, a⟩
    · cases hs
      exact ⟨0, _, [], _, Nat.zero_add _, rfl, .nil, .plain hy hrest⟩
    cases hs
    obtain ⟨k, m, u, v, rfl, rfl, hu, hv⟩ := ih rfl
    exact ⟨k, m, _ :: u, v, rfl, rfl, .plain hy hu, hv⟩
  | object hdefines hbody hrest _ ih =>
    -- The cut cannot fall inside the three statements of the reference.
    rcases a with _ | ⟨y, _ | ⟨z, _ | ⟨w, a⟩⟩⟩
    · cases hs
      exact ⟨0, _, [], _, Nat.zero_add _, rfl, .nil, .object hdefines hbody hrest⟩
    · cases hs
      exact absurd rfl (hname _)
    · cases hs
      exact absurd rfl hclose
    · cases hs
      obtain ⟨k, m, u, v, rfl, rfl, hu, hv⟩ := ih rfl
      exact ⟨_, m, _, v, by omega, by simp, .object hdefines hbody hu, hv⟩
  | items hdefines hbody hrest _ ih =>
    rcases a with _ | ⟨y, a⟩
    · cases hs
      exact ⟨0, _, [], _, Nat.zero_add _, rfl, .nil, .items hdefines hbody hrest⟩
    cases hs
    obtain ⟨k, m, u, v, rfl, rfl, hu, hv⟩ := ih rfl
    exact ⟨_, m, _, v, by omega, by simp, .items hdefines hbody hu, hv⟩

/-- What no replacement applies to is its own expansion. -/
theorem eq_of_irreducible {n : ℕ} {s t : List Statement} (h : Expands fragments n s t)
    (hdone : ∀ v, ¬ Replaces fragments s v) : s = t := by
  induction h with
  | nil => rfl
  | @plain n x s t _ _ ih =>
    rw [ih]
    rintro _ ⟨before, after, hunfold⟩
    exact hdone _ (.within (x :: before) after hunfold)
  | object hdefines _ _ _ _ => exact absurd (.within [] _ (.object hdefines)) (hdone _)
  | items hdefines _ _ _ _ => exact absurd (.within [] _ (.items hdefines)) (hdone _)

theorem isPlain_of_mem {n : ℕ} {s t : List Statement} (h : Expands fragments n s t) :
    ∀ x ∈ t, x.isPlain = true := by
  induction h with
  | nil => simp
  | plain hx _ ih => exact List.forall_mem_cons.mpr ⟨hx, ih⟩
  | object _ _ _ ihbody ih =>
    exact List.forall_mem_append.mpr
      ⟨List.forall_mem_cons.mpr ⟨rfl, ihbody⟩, List.forall_mem_cons.mpr ⟨rfl, ih⟩⟩
  | items _ _ _ ihbody ih =>
    exact List.forall_mem_append.mpr
      ⟨List.forall_mem_cons.mpr ⟨rfl, ihbody⟩, List.forall_mem_cons.mpr ⟨rfl, ih⟩⟩

/-! ## Counting down -/

section unambiguous

variable (hbodies : Unambiguous fragments)
include hbodies

/-- Unfolding a reference in front uses up one replacement of the expansion. -/
theorem unfold {n : ℕ} {redex result after t : List Statement}
    (hunfold : Unfolds fragments redex result) (h : Expands fragments n (redex ++ after) t) :
    ∃ m, n = m + 1 ∧ Expands fragments m (result ++ after) t := by
  cases hunfold with
  | object hdefines =>
    cases h with
    | plain hplain _ => cases hplain
    | object hsame hbody hrest =>
      obtain rfl := hbodies _ _ _ hdefines hsame
      have hclosed := hbody.append (.plain (x := .objectClose) rfl hrest)
      rw [List.append_cons] at hclosed
      exact ⟨_, rfl, .plain rfl hclosed⟩
  | items hdefines =>
    cases h with
    | plain hplain _ => cases hplain
    | items hsame hbody hrest =>
      obtain rfl := hbodies _ _ _ hdefines hsame
      have hclosed := hbody.append (.plain (x := .repeatClose .object) rfl hrest)
      rw [List.append_cons] at hclosed
      exact ⟨_, rfl, .plain rfl hclosed⟩

/-- Every replacement uses up one replacement of the expansion and keeps its result. -/
theorem replace {n : ℕ} {s s' t : List Statement}
    (hreplaces : Replaces fragments s s') (h : Expands fragments n s t) :
    ∃ m, n = m + 1 ∧ Expands fragments m s' t := by
  cases hreplaces with
  | @within redex result before after hunfold =>
    -- A reference opens with a statement that stands inside no other one, so the list may be cut there.
    have hsplit : ∃ k m u v, k + m = n ∧ u ++ v = t ∧ Expands fragments k before u ∧
        Expands fragments m (redex ++ after) v := by
      rw [List.append_assoc] at h
      cases hunfold with
      | object _ => exact h.split (by simp) (by simp)
      | items _ => exact h.split (by simp) (by simp)
    obtain ⟨k, m, u, v, rfl, rfl, hbefore, hredex⟩ := hsplit
    obtain ⟨m', rfl, hresult⟩ := hredex.unfold hbodies hunfold
    refine ⟨k + m', by omega, ?_⟩
    rw [List.append_assoc]
    exact hbefore.append hresult

/-- Replacing ends, because every replacement uses up one of finitely many. -/
theorem acc {n : ℕ} {s t : List Statement}
    (h : Expands fragments n s t) :
    Acc (fun after before => Replaces fragments before after) s := by
  induction n generalizing s with
  | zero =>
    refine .intro s fun s' hreplaces => ?_
    -- An expansion without replacements leaves none to be made.
    obtain ⟨m, hm, _⟩ := h.replace hbodies hreplaces
    omega
  | succ n ih =>
    refine .intro s fun s' hreplaces => ?_
    obtain ⟨m, hm, hnext⟩ := h.replace hbodies hreplaces
    obtain rfl : n = m := by omega
    exact ih hnext

theorem of_run {n : ℕ} {s s' t : List Statement}
    (h : Expands fragments n s t) (hrun : ReflTransGen (Replaces fragments) s s') :
    ∃ m, Expands fragments m s' t := by
  induction hrun with
  | refl => exact ⟨n, h⟩
  | tail _ hreplaces ih =>
    obtain ⟨m, hm⟩ := ih
    obtain ⟨k, _, hk⟩ := hm.replace hbodies hreplaces
    exact ⟨k, hk⟩

/-- Some order of replacements leads to the expansion. -/
theorem reaches {n : ℕ} {s t : List Statement}
    (h : Expands fragments n s t) : ReflTransGen (Replaces fragments) s t := by
  by_cases hdone : ∀ v, ¬ Replaces fragments s v
  · -- Nothing is left to replace, so this is the expansion already.
    rw [h.eq_of_irreducible hdone]
  · push Not at hdone
    obtain ⟨s', hreplaces⟩ := hdone
    obtain ⟨m, rfl, hnext⟩ := h.replace hbodies hreplaces
    exact .head hreplaces hnext.reaches
termination_by n

/-- A list that has an expansion is inlined to it. -/
theorem inlinesTo {n : ℕ} {s t : List Statement}
    (h : Expands fragments n s t) : InlinesTo fragments s t where
  ends := h.acc hbodies
  reaches := h.reaches hbodies
  unique u hrun hdone := by
    obtain ⟨m, hm⟩ := h.of_run hbodies hrun
    exact hm.eq_of_irreducible hdone
  resolved := h.isPlain_of_mem

end unambiguous

end Expands
end ContractDraft

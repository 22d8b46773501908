import ContractDraft.Proofs.Contract.Draft
import ContractDraft.Proofs.Fragment.Selection
import Mathlib.Data.List.Pairwise

/-!
# Which objects share a fragment

With sharing, a plan sorts the objects that it decides on by their signatures: one name for each
signature, given to the first object that has it. Below an object that shares nothing is decided,
and this is the only reason for passing over an object that qualifies.

Three invariants of the moves of the walk carry this: a new fragment differs in name and signature
from all that was decided before (`Novel`), nothing is visited below an object that shares
(`Sealed`), and what qualifies is decided on, still to be visited, or below such an object
(`Reached`).
-/

namespace ContractDraft

namespace Planner

variable {planner : Planner} {document : Value}

/-! ## New fragments -/

/-- Of two items of a list one stands before the other. -/
theorem or_of_pairwise {α : Type} {R : α → α → Prop} {items : List α} (h : items.Pairwise R)
    {a b : α} (ha : a ∈ items) (hb : b ∈ items) (hne : a ≠ b) : R a b ∨ R b a := by
  have hsymm : Std.Symm fun a b => R a b ∨ R b a := ⟨fun _ _ => Or.symm⟩
  have heither : items.Pairwise fun a b => R a b ∨ R b a := h.imp Or.inl
  exact heither.forall ha hb hne

/-- A new fragment has a name and a signature that nothing decided before it has. -/
def Novel (planner : Planner) (decisions : List Decision) : Prop :=
  decisions.Pairwise fun a b => b.origin = .extracted →
    a.name ≠ b.name ∧ signature planner.policy (.object a.fields) ≠
      signature planner.policy (.object b.fields)

/-- Different fragments differ in name and in signature. -/
theorem Novel.ne_of_extracted {decisions : List Decision} (h : Novel planner decisions)
    {d e : Decision} (hd : d ∈ decisions) (he : e ∈ decisions) (hne : d ≠ e)
    (hdorigin : d.origin = .extracted) (heorigin : e.origin = .extracted) :
    d.name ≠ e.name ∧ signature planner.policy (.object d.fields) ≠
      signature planner.policy (.object e.fields) := by
  rcases or_of_pairwise h hd he hne with hbefore | hafter
  · exact hbefore heorigin
  · exact ⟨(hafter hdorigin).1.symm, (hafter hdorigin).2.symm⟩

/-- If sharing is on and there is nothing to share, no fragment has the signature of the object. -/
theorem signature_ne_of_reusable?_eq_none (hon : planner.options.reuseIdentical = true)
    {decisions : List Decision} {fields : Fields} (h : planner.reusable? decisions fields = none)
    {d : Decision} (hd : d ∈ decisions) (horigin : d.origin = .extracted) :
    signature planner.policy (.object d.fields) ≠ signature planner.policy (.object fields) := by
  rw [reusable?, if_pos hon] at h
  have hnone := List.find?_eq_none.mp (Option.map_eq_none_iff.mp h) d hd
  simpa [horigin] using hnone

theorem Novel.move (hon : planner.options.reuseIdentical = true) {m n : Moment}
    (h : Novel planner m.decisions) (hnamed : Named planner m.decisions)
    (hmove : planner.Move m n) : Novel planner n.decisions := by
  cases hmove with
  | share _ _ =>
    refine List.pairwise_append.mpr ⟨h, List.pairwise_singleton .., fun d _ => ?_⟩
    simp
  | @extract path fields rest decisions _ hnone =>
    refine List.pairwise_append.mpr ⟨h, List.pairwise_singleton .., fun d hd => ?_⟩
    refine List.forall_mem_singleton.mpr fun _ => ⟨fun hname => ?_, ?_⟩
    · refine extract_name_not_mem planner decisions path fields (List.mem_cons_of_mem _ ?_)
      exact hname ▸ List.mem_map_of_mem hd
    · -- An object that shares has the signature of a fragment, and no fragment has this one.
      obtain ⟨f, hf, horigin, _, hsame⟩ := hnamed.source d hd
      rw [← hsame]
      exact signature_ne_of_reusable?_eq_none hon hnone hf horigin
  | inline _ => exact h
  | enter => exact h
  | passEmpty => exact h
  | passScalar _ => exact h

/-! ## Below an object that shares -/

/-- Nothing is decided or still to be visited below an object that shares. -/
structure Sealed (m : Moment) : Prop where
  pending : ∀ d ∈ m.decisions, d.origin = .reused → ∀ p ∈ m.pending, ¬ d.path <:+ p.1
  decisions : m.decisions.Pairwise fun a b => a.origin = .reused → ¬ a.path <:+ b.path

theorem Sealed.start (document : Value) : Sealed ⟨[(.root, document)], []⟩ where
  pending := by simp
  decisions := .nil

/-- The first value still to be visited gives way to values inside it. -/
theorem Sealed.replace {v : Value} {path : Path} {rest : List (Path × Value)}
    {decisions : List Decision} (h : Sealed ⟨(path, v) :: rest, decisions⟩)
    (hplaced : Placed document ⟨(path, v) :: rest, decisions⟩) (inner : List (Path × Value))
    (hinside : ∀ p ∈ inner, path <:+ p.1) : Sealed ⟨inner ++ rest, decisions⟩ where
  pending d hd horigin := by
    have hcons := List.forall_mem_cons.mp (h.pending d hd horigin)
    have hahead := hplaced.pending_ahead _ (List.mem_cons_self ..) d hd
    have hapart : path.Apart d.path := ⟨hahead, hcons.1⟩
    refine List.forall_mem_append.mpr ⟨fun p hp => ?_, hcons.2⟩
    exact (hapart.of_suffix (hinside p hp)).2
  decisions := h.decisions

/-- A decision on the first value still to be visited, after which `pending` is to be visited. -/
theorem Sealed.decide {v : Value} {path : Path} {rest pending : List (Path × Value)}
    {decisions : List Decision} (h : Sealed ⟨(path, v) :: rest, decisions⟩)
    (hnext : Sealed ⟨pending, decisions⟩) {d : Decision} (hpath : d.path = path)
    (hbelow : d.origin = .reused → ∀ p ∈ pending, ¬ path <:+ p.1) :
    Sealed ⟨pending, decisions ++ [d]⟩ where
  pending := by
    refine List.forall_mem_append.mpr ⟨hnext.pending, List.forall_mem_singleton.mpr ?_⟩
    rwa [hpath]
  decisions := by
    refine List.pairwise_append.mpr ⟨h.decisions, List.pairwise_singleton .., fun a ha => ?_⟩
    refine List.forall_mem_singleton.mpr fun horigin => ?_
    rw [hpath]
    exact h.pending a ha horigin _ (List.mem_cons_self ..)

theorem Sealed.move {m n : Moment} (h : Sealed m) (hplaced : Placed document m)
    (hmove : planner.Move m n) : Sealed n := by
  cases hmove with
  | share _ _ =>
    refine h.decide (h.replace hplaced [] (by simp)) rfl fun _ p hp => ?_
    exact ((List.pairwise_cons.mp hplaced.pending_apart).1 p hp).1
  | extract _ _ => exact h.decide (h.replace hplaced _ (below_inside _ _)) rfl (by simp [extract])
  | inline _ => exact h.replace hplaced _ (below_inside _ _)
  | enter => exact h.replace hplaced [_] (List.forall_mem_singleton.mpr (Path.suffix_element _))
  | passEmpty => exact h.replace hplaced [] (by simp)
  | passScalar _ => exact h.replace hplaced [] (by simp)

/-! ## What is passed over -/

/-- Every object that qualifies has been decided on, lies inside a value still to be visited, or lies
below an object that shares. -/
def Reached (planner : Planner) (document : Value) (m : Moment) : Prop :=
  ∀ path fields, document.at? path = some (.object fields) → planner.qualifies path fields = true →
    (∃ d ∈ m.decisions, d.path = path) ∨ (∃ p ∈ m.pending, p.1 <:+ path) ∨
      ∃ d ∈ m.decisions, d.origin = .reused ∧ d.path <:+ path ∧ d.path ≠ path

theorem Reached.start (planner : Planner) (document : Value) :
    Reached planner document ⟨[(.root, document)], []⟩ :=
  fun _ _ _ _ => .inr (.inl ⟨_, List.mem_singleton_self _, List.nil_suffix⟩)

theorem Reached.move {m n : Moment} (h : Reached planner document m)
    (hplaced : Placed document m) (hmove : planner.Move m n) : Reached planner document n := by
  intro path fields hat hqualifies
  have hkept := (decisions_prefix_of_run (.single hmove)).subset
  rcases h path fields hat hqualifies with ⟨d, hd, hpath⟩ | hinside | ⟨d, hd, hbelow⟩
  · exact .inl ⟨d, hkept hd, hpath⟩
  · exact (hmove.covers hplaced hat hqualifies hinside).imp_right (Or.imp_right And.right)
  · exact .inr (.inr ⟨d, hkept hd, hbelow⟩)

/-! ## Plans with sharing -/

/-- What a walk with sharing keeps true beyond the invariants of every walk. -/
structure Sorted (planner : Planner) (document : Value) (m : Moment) : Prop where
  novel : Novel planner m.decisions
  isolated : Sealed m
  reached : Reached planner document m

theorem Sorted.run (hdistinct : document.DistinctKeys)
    (hon : planner.options.reuseIdentical = true) {m n : Moment} (h : Sorted planner document m)
    (hplaced : Placed document m) (hnamed : Named planner m.decisions)
    (hrun : Relation.ReflTransGen planner.Move m n) : Sorted planner document n := by
  induction hrun with
  | refl => exact h
  | tail hbefore hmove ih =>
    have hplaced := hplaced.run hdistinct hbefore
    exact ⟨ih.novel.move hon (hnamed.run hbefore) hmove, ih.isolated.move hplaced hmove,
      ih.reached.move hplaced hmove⟩

theorem plan_sorted (hdistinct : document.DistinctKeys) (henabled : planner.options.enabled = true)
    (hon : planner.options.reuseIdentical = true) :
    Sorted planner document ⟨[], (planner.plan document).decisions⟩ := by
  have hstart : Sorted planner document ⟨[(.root, document)], []⟩ :=
    ⟨.nil, .start document, .start planner document⟩
  exact hstart.run hdistinct hon (.start document) (.start planner) (run_plan henabled document)

/-- Objects have one fragment exactly if they have one signature. -/
theorem Sorted.name_eq_iff {m : Moment} (h : Sorted planner document m)
    (hnamed : Named planner m.decisions) {d e : Decision} (hd : d ∈ m.decisions)
    (he : e ∈ m.decisions) : d.name = e.name ↔
      signature planner.policy (.object d.fields) = signature planner.policy (.object e.fields) := by
  obtain ⟨f, hf, horigin, hname, hsignature⟩ := hnamed.source d hd
  obtain ⟨g, hg, horigin', hname', hsignature'⟩ := hnamed.source e he
  rw [← hname, ← hname', ← hsignature, ← hsignature']
  by_cases hsame : f = g
  · rw [hsame]
    exact ⟨fun _ => rfl, fun _ => rfl⟩
  · -- Of two fragments, the one that was made later differs from the other in both.
    obtain ⟨hnames, hsignatures⟩ := h.novel.ne_of_extracted hf hg hsame horigin horigin'
    exact ⟨fun hn => absurd hn hnames, fun hs => absurd hs hsignatures⟩

/-- The fragment of an object is the object itself, or it stands before the object. -/
theorem Sorted.eq_or_before {m : Moment} (h : Sorted planner document m)
    (hordered : m.decisions.Pairwise fun a b => Path.Before document a.path b.path)
    {f d : Decision} (hf : f ∈ m.decisions) (horigin : f.origin = .extracted)
    (hd : d ∈ m.decisions) (hname : d.name = f.name) :
    d.path = f.path ∨ Path.Before document f.path d.path := by
  by_cases hsame : f = d
  · exact .inl (hsame ▸ rfl)
  · rcases or_of_pairwise (h.novel.and hordered) hf hd hsame with ⟨_, hbefore⟩ | ⟨hnovel, _⟩
    · exact .inr hbefore
    · exact absurd hname (hnovel horigin).1

/-- An object that qualifies is passed over exactly if it lies below an object that shares. -/
theorem Sorted.not_decided_iff {decisions : List Decision}
    (h : Sorted planner document ⟨[], decisions⟩)
    (hordered : decisions.Pairwise fun a b => ¬ b.path <:+ a.path) {path : Path} {fields : Fields}
    (hat : document.at? path = some (.object fields))
    (hqualifies : planner.qualifies path fields = true) :
    (∀ d ∈ decisions, d.path ≠ path) ↔
      ∃ d ∈ decisions, d.origin = .reused ∧ d.path <:+ path ∧ d.path ≠ path := by
  refine ⟨fun hnone => ?_, ?_⟩
  · rcases h.reached path fields hat hqualifies with ⟨d, hd, hpath⟩ | ⟨p, hp, _⟩ | hbelow
    · exact absurd hpath (hnone d hd)
    · cases hp
    · exact hbelow
  · rintro ⟨d, hd, horigin, hsuffix, hne⟩ e he rfl
    have hde : d ≠ e := fun hsame => hne (hsame ▸ rfl)
    -- Made before or after the entry around it, an entry would break one of the two invariants.
    rcases or_of_pairwise (h.isolated.decisions.and hordered) hd he hde with
      ⟨hsealed, _⟩ | ⟨_, hnot⟩
    · exact hsealed horigin hsuffix
    · exact hnot hsuffix

end Planner

/-- In the table of a plan, the paths that are those of no fragment belong to objects that share. -/
theorem Plan.Sound.reused_iff {planner : Planner} {document : Value} {plan : Plan}
    (h : plan.Sound planner document) {d : Decision} (hd : d ∈ plan.decisions) :
    d.origin = .reused ↔ d.path ∉ plan.fragments.map (·.path) := by
  constructor
  · intro horigin hmem
    obtain ⟨f, hf, hpath⟩ := List.mem_map.mp hmem
    obtain ⟨hdecided, hextracted⟩ := Plan.mem_fragments.mp hf
    rw [← h.eq_of_path hdecided hd hpath, hextracted] at horigin
    cases horigin
  · intro hnot
    cases horigin : d.origin with
    | reused => rfl
    | extracted => exact absurd (List.mem_map_of_mem (Plan.mem_fragments.mpr ⟨hd, horigin⟩)) hnot

namespace Planner

/-- With sharing, two objects in the table of a plan have one name exactly if they have one
signature. The fragment of that name is unique and stands at the first of their paths in pre-order,
and no two fragments have one signature. An object that qualifies is missing from the table exactly
if a path around it is in the table without being that of a fragment. -/
theorem plan_groups (planner : Planner) {document : Value} (hdistinct : document.DistinctKeys)
    (henabled : planner.options.enabled = true) (hon : planner.options.reuseIdentical = true) :
    let plan := planner.plan document
    (∀ p name, plan.nameAt? p = some name →
      ∃ fields, document.at? p = some (.object fields)) ∧
    (∀ p q name other fields others, plan.nameAt? p = some name → plan.nameAt? q = some other →
      document.at? p = some (.object fields) → document.at? q = some (.object others) →
      (name = other ↔
        signature planner.policy (.object fields) = signature planner.policy (.object others))) ∧
    (∀ p name, plan.nameAt? p = some name → ∃ f ∈ plan.fragments, f.name = name ∧
      (∀ g ∈ plan.fragments, g.name = name → g = f) ∧ plan.nameAt? f.path = some name ∧
      ∀ q, plan.nameAt? q = some name → q = f.path ∨ Path.Before document f.path q) ∧
    ((∀ f ∈ plan.fragments, document.at? f.path = some (.object f.fields)) ∧
      (plan.fragments.map fun f => signature planner.policy (.object f.fields)).Nodup) ∧
    ∀ path fields, document.at? path = some (.object fields) →
      planner.options.minFields.toNat < fields.length →
      path.length ≤ planner.options.maxDepth.toNat → path ≠ [] → path ≠ [.item] →
      (plan.nameAt? path = none ↔ ∃ around, around <:+ path ∧ around ≠ path ∧
        (plan.nameAt? around).isSome ∧ around ∉ plan.fragments.map (·.path)) := by
  intro plan
  have hsound : plan.Sound planner document := planner.plan_sound hdistinct
  have hsorted : Sorted planner document ⟨[], plan.decisions⟩ := plan_sorted hdistinct henabled hon
  refine ⟨fun p name hname => ?_, fun p q name other fields others hp hq hat hat' => ?_,
    fun p name hname => ?_, ⟨fun f hf => ?_, ?_⟩,
    fun path fields hat hfields hdepth hroot hitem => ?_⟩
  · obtain ⟨d, hd, rfl, _⟩ := Plan.exists_of_nameAt? hname
    exact ⟨d.fields, hsound.located d hd⟩
  · obtain ⟨d, hd, rfl, rfl, rfl⟩ := hsound.exists_of_nameAt?_object hat hp
    obtain ⟨e, he, rfl, rfl, rfl⟩ := hsound.exists_of_nameAt?_object hat' hq
    exact hsorted.name_eq_iff hsound.named hd he
  · obtain ⟨d, hd, rfl, rfl⟩ := Plan.exists_of_nameAt? hname
    obtain ⟨f, hf, hsame, _⟩ := hsound.exists_fragment hd
    obtain ⟨hmem, horigin⟩ := Plan.mem_fragments.mp hf
    refine ⟨f, hf, hsame, fun g hg hg' => hsound.eq_of_name hg hf (hg'.trans hsame.symm),
      hsame ▸ hsound.nameAt?_of_mem hmem, fun q hq => ?_⟩
    obtain ⟨e, he, rfl, hname'⟩ := Plan.exists_of_nameAt? hq
    exact hsorted.eq_or_before (planner.plan_inOrder hdistinct) hmem horigin he
      (hname'.trans hsame.symm)
  · exact hsound.located f (Plan.mem_fragments.mp hf).1
  · refine List.pairwise_map.mpr (List.pairwise_filter.mpr ?_)
    exact hsorted.novel.imp fun hnovel _ horigin => (hnovel (by simpa using horigin)).2
  · have hdocument := Path.isDocument_eq_false_iff.mpr ⟨hroot, hitem⟩
    have hqualifies : planner.qualifies path fields = true := by
      simp [qualifies, hdocument, hdepth, hfields]
    rw [Plan.nameAt?_eq_none_iff, hsorted.not_decided_iff hsound.ordered hat hqualifies]
    refine ⟨?_, ?_⟩
    · rintro ⟨d, hd, horigin, hsuffix, hne⟩
      have hsome : (plan.nameAt? d.path).isSome = true := by rw [hsound.nameAt?_of_mem hd]; rfl
      exact ⟨d.path, hsuffix, hne, hsome, (hsound.reused_iff hd).mp horigin⟩
    · rintro ⟨around, hsuffix, hne, hsome, hnot⟩
      obtain ⟨name, hname⟩ := Option.isSome_iff_exists.mp hsome
      obtain ⟨d, hd, rfl, _⟩ := Plan.exists_of_nameAt? hname
      exact ⟨d, hd, (hsound.reused_iff hd).mpr hnot, hsuffix, hne⟩

/-- In an order both parties have the fragment of the first one, and the place of the second party,
which qualifies, is in no table because it lies below that party. -/
theorem plan_groups_order :
    let planner := (Config.small true).planner
    let party : Path := [.item, .key "delivery"]
    Value.order.DistinctKeys ∧ planner.options.enabled = true ∧
      planner.options.reuseIdentical = true ∧
      (planner.plan .order).nameAt? [.key "billing"] = some "billing" ∧
      (planner.plan .order).nameAt? party = some "billing" ∧
      (∃ f ∈ (planner.plan .order).fragments, f.name = "billing" ∧
        ∀ q, (planner.plan .order).nameAt? q = some "billing" →
          q = f.path ∨ Path.Before .order f.path q) ∧
      ((planner.plan .order).fragments.map fun f =>
        signature planner.policy (.object f.fields)).Nodup ∧
      ∃ around, around <:+ party.child "place" ∧ around ≠ party.child "place" ∧
        ((planner.plan .order).nameAt? around).isSome ∧
        around ∉ (planner.plan .order).fragments.map (·.path) := by
  intro planner party
  obtain ⟨_, _, hfirst, ⟨_, hnodup⟩, hmissing⟩ :=
    planner.plan_groups Value.order_distinctKeys rfl rfl
  have hbilling : (planner.plan .order).nameAt? [.key "billing"] = some "billing" := by
    decide +kernel
  have hparty : (planner.plan .order).nameAt? party = some "billing" := by decide +kernel
  have hplace : (planner.plan .order).nameAt? (party.child "place") = none := by decide +kernel
  obtain ⟨f, hf, hname, _, _, hbefore⟩ := hfirst party "billing" hparty
  refine ⟨Value.order_distinctKeys, rfl, rfl, hbilling, hparty, ⟨f, hf, hname, hbefore⟩, hnodup, ?_⟩
  exact (hmissing (party.child "place") _ rfl (by decide) (by decide) (by decide)
    (by decide)).mp hplace

end Planner
end ContractDraft

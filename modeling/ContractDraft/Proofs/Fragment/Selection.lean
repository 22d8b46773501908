import ContractDraft.Proofs.Fragment.Naming

/-!
# Which objects a plan selects

Without sharing, a plan selects exactly the objects that qualify, in pre-order: an object stands
before all objects inside it, and what is under an earlier key stands before what is under a later
one. The pre-order is defined on paths alone (`Path.Before`); that the plan follows it is an
invariant of the moves of the walk, and so is that no qualifying object is passed over.
-/

namespace ContractDraft

/-! ## The pre-order of paths -/

namespace Path

/-- The paths part at an object, where `p` goes by an earlier key than `q`. -/
def Aside (document : Value) (p q : Path) : Prop :=
  ∃ (path : Path) (fields : Fields) (k l : String), document.at? path = some (.object fields) ∧
    List.Sublist [k, l] (fields.map (·.1)) ∧ path.child k <:+ p ∧ path.child l <:+ q

/-- What `p` leads to comes before what `q` leads to: it lies around it, or under an earlier key. -/
def Before (document : Value) (p q : Path) : Prop :=
  (p <:+ q ∧ p ≠ q) ∨ Aside document p q

variable {document : Value} {p q r : Path}

/-- Paths that lie aside have everything below them aside. -/
theorem Aside.of_suffix (h : Aside document p q) {p' q' : Path} (hp : p <:+ p') (hq : q <:+ q') :
    Aside document p' q' := by
  obtain ⟨path, fields, k, l, hat, hkeys, hk, hl⟩ := h
  exact ⟨path, fields, k, l, hat, hkeys, hk.trans hp, hl.trans hq⟩

/-- What comes before a value comes before everything inside it. -/
theorem Before.of_suffix (h : Before document p q) (hq : q <:+ r) : Before document p r := by
  rcases h with ⟨hpq, hne⟩ | haside
  · refine .inl ⟨hpq.trans hq, fun hsame => hne ?_⟩
    have hle := hq.length_le
    rw [← hsame] at hle
    exact hpq.eq_of_length_le hle
  · exact .inr (haside.of_suffix List.suffix_rfl hq)

/-- The number of array items at the end of a path. -/
def trailingItems (path : Path) : ℕ := (path.takeWhile fun step => step = .item).length

/-- The last key on a path. -/
def lastKey? (path : Path) : Option String :=
  path.findSome? fun step =>
    match step with
    | .key key => some key
    | .item => none

/-- All paths but the root and the items of the root lie inside the document. -/
theorem isDocument_eq_false_iff {path : Path} :
    path.isDocument = false ↔ path ≠ [] ∧ path ≠ [.item] := by
  unfold isDocument
  split
  · simp
  · simp
  · rename_i hroot hitem
    exact ⟨fun _ => ⟨hroot, hitem⟩, fun _ => rfl⟩

end Path

/-- A node is named after the last key that leads to it, or after the document, in the singular once
for every item at the end of its path. -/
theorem Name.hint_eq (rootName : String) (path : Path) :
    hint rootName path =
      ofItem^[path.trailingItems] (lowerCamelCase (path.lastKey?.getD rootName)) := by
  induction path with
  | nil => rfl
  | cons step path ih =>
    cases step with
    | key key => rfl
    | item =>
      have htrailing : Path.trailingItems (.item :: path) = Path.trailingItems path + 1 := by
        simp [Path.trailingItems]
      have hlast : Path.lastKey? (.item :: path) = Path.lastKey? path := rfl
      rw [htrailing, hlast, Function.iterate_succ_apply', ← ih]
      rfl

/-! ## Paths that lead through a value -/

namespace Value

/-- If a path leads somewhere, so does every path that it leads through. -/
theorem exists_at?_of_append {document v : Value} {steps path : Path}
    (h : document.at? (steps ++ path) = some v) : ∃ w, document.at? path = some w := by
  induction steps generalizing v with
  | nil => exact ⟨v, h⟩
  | cons step steps ih =>
    cases hrest : document.at? (steps ++ path) with
    | none =>
      cases step <;> simp [at?, hrest] at h
    | some w => exact ih hrest

/-- A path that leads on from `path` takes a step from there to some value. -/
theorem exists_step_of_suffix {document v : Value} {path p : Path} (h : document.at? p = some v)
    (hsuffix : path <:+ p) (hne : path ≠ p) :
    ∃ step w, (step :: path) <:+ p ∧ document.at? (step :: path) = some w := by
  obtain ⟨steps, rfl⟩ := hsuffix
  have hsteps : steps ≠ [] := by
    rintro rfl
    exact hne rfl
  have hsplit : steps.dropLast ++ (steps.getLast hsteps :: path) = steps ++ path := by
    rw [List.append_cons, List.dropLast_append_getLast]
  rw [← hsplit] at h
  obtain ⟨w, hw⟩ := exists_at?_of_append h
  exact ⟨_, w, ⟨_, hsplit⟩, hw⟩

/-- From an object a path leads on by one of its keys. -/
theorem exists_child_of_suffix {document v : Value} {path p : Path} {fields : Fields}
    (hat : document.at? path = some (.object fields)) (h : document.at? p = some v)
    (hsuffix : path <:+ p) (hne : path ≠ p) : ∃ field ∈ fields, path.child field.1 <:+ p := by
  obtain ⟨step, w, hstep, hw⟩ := exists_step_of_suffix h hsuffix hne
  cases step with
  | key key =>
    simp only [at?, hat] at hw
    obtain ⟨field, hfind, _⟩ := Option.map_eq_some_iff.mp hw
    have hkey : field.1 = key := by simpa using List.find?_some hfind
    refine ⟨field, List.mem_of_find?_eq_some hfind, ?_⟩
    rw [hkey]
    exact hstep
  | item => simp [at?, hat] at hw

/-- From an array a path leads on through its first item. -/
theorem element_suffix_of_suffix {document v : Value} {path p : Path} {items : List Value}
    (hat : document.at? path = some (.array items)) (h : document.at? p = some v)
    (hsuffix : path <:+ p) (hne : path ≠ p) : path.element <:+ p ∧ items ≠ [] := by
  obtain ⟨step, w, hstep, hw⟩ := exists_step_of_suffix h hsuffix hne
  cases step with
  | key key => simp [at?, hat] at hw
  | item =>
    refine ⟨hstep, ?_⟩
    rintro rfl
    simp [at?, hat] at hw

/-- From a scalar no path leads on. -/
theorem eq_of_scalar_suffix {document v w : Value} {path p : Path} (hscalar : w.isScalar = true)
    (hat : document.at? path = some w) (h : document.at? p = some v) (hsuffix : path <:+ p) :
    path = p := by
  by_contra hne
  obtain ⟨step, _, _, hw⟩ := exists_step_of_suffix h hsuffix hne
  cases w with
  | array items => cases hscalar
  | object fields => cases hscalar
  | _ => cases step <;> simp [at?, hat] at hw

end Value

/-! ## The order of decisions -/

namespace Planner

variable {planner : Planner} {document : Value}

/-- Decisions follow the pre-order, and so does what is still to be visited, behind them. -/
structure InOrder (document : Value) (m : Moment) : Prop where
  pending : m.pending.Pairwise fun p q => Path.Aside document p.1 q.1
  ahead : ∀ d ∈ m.decisions, ∀ p ∈ m.pending, Path.Before document d.path p.1
  decisions : m.decisions.Pairwise fun a b => Path.Before document a.path b.path

theorem InOrder.start (document : Value) : InOrder document ⟨[(.root, document)], []⟩ where
  pending := List.pairwise_singleton ..
  ahead := by simp
  decisions := .nil

/-- The first value still to be visited gives way to values inside it. -/
theorem InOrder.replace {v : Value} {path : Path} {rest : List (Path × Value)}
    {decisions : List Decision} (h : InOrder document ⟨(path, v) :: rest, decisions⟩)
    (inner : List (Path × Value)) (hinside : ∀ p ∈ inner, path <:+ p.1)
    (hinner : inner.Pairwise fun p q => Path.Aside document p.1 q.1) :
    InOrder document ⟨inner ++ rest, decisions⟩ where
  pending := by
    have hcons := List.pairwise_cons.mp h.pending
    refine List.pairwise_append.mpr ⟨hinner, hcons.2, fun p hp q hq => ?_⟩
    exact (hcons.1 q hq).of_suffix (hinside p hp) List.suffix_rfl
  ahead d hd := by
    have hcons := List.forall_mem_cons.mp (h.ahead d hd)
    exact List.forall_mem_append.mpr ⟨fun p hp => hcons.1.of_suffix (hinside p hp), hcons.2⟩
  decisions := h.decisions

/-- A decision on the first value still to be visited, before everything inside it and behind it. -/
theorem InOrder.decide {v : Value} {path : Path} {rest pending : List (Path × Value)}
    {decisions : List Decision} (h : InOrder document ⟨(path, v) :: rest, decisions⟩)
    (hnext : InOrder document ⟨pending, decisions⟩) {d : Decision} (hpath : d.path = path)
    (hafter : ∀ p ∈ pending, Path.Before document path p.1) :
    InOrder document ⟨pending, decisions ++ [d]⟩ where
  pending := hnext.pending
  ahead := by
    refine List.forall_mem_append.mpr ⟨hnext.ahead, List.forall_mem_singleton.mpr ?_⟩
    rwa [hpath]
  decisions := by
    refine List.pairwise_append.mpr
      ⟨h.decisions, List.pairwise_singleton .., fun other hother => ?_⟩
    refine List.forall_mem_singleton.mpr ?_
    rw [hpath]
    exact h.ahead other hother _ (List.mem_cons_self ..)

/-- The fields of an object lie aside in their order. -/
theorem below_aside {path : Path} {fields : Fields}
    (hat : document.at? path = some (.object fields)) :
    (below path fields).Pairwise fun p q => Path.Aside document p.1 q.1 := by
  refine List.pairwise_map.mpr (List.pairwise_iff_forall_sublist.mpr fun {f g} hfg => ?_)
  exact ⟨path, fields, f.1, g.1, hat, hfg.map _, List.suffix_rfl, List.suffix_rfl⟩

theorem below_inside (path : Path) (fields : Fields) : ∀ p ∈ below path fields, path <:+ p.1 := by
  intro p hp
  obtain ⟨field, _, rfl⟩ := List.mem_map.mp hp
  exact path.suffix_child field.1

/-- A move of the planner keeps the order of what is decided and what is pending. -/
theorem InOrder.move {m n : Moment} (h : InOrder document m) (hplaced : Placed document m)
    (hmove : planner.Move m n) : InOrder document n := by
  -- What stands behind the visited value lies aside from it.
  have hrest {path : Path} {v : Value} {rest : List (Path × Value)} {decisions : List Decision}
      (h : InOrder document ⟨(path, v) :: rest, decisions⟩) :
      ∀ p ∈ rest, Path.Before document path p.1 :=
    fun p hp => .inr ((List.pairwise_cons.mp h.pending).1 p hp)
  cases hmove with
  | share _ _ =>
    have hnext := h.replace [] (by simp) .nil
    exact h.decide hnext rfl (hrest h)
  | @extract path fields rest decisions _ _ =>
    have hat := hplaced.pending_at _ (List.mem_cons_self ..)
    have hnext := h.replace _ (below_inside path fields) (below_aside hat)
    refine h.decide hnext rfl (List.forall_mem_append.mpr ⟨fun p hp => .inl ?_, hrest h⟩)
    obtain ⟨field, _, rfl⟩ := List.mem_map.mp hp
    refine ⟨path.suffix_child field.1, fun hsame => ?_⟩
    have hlength := congrArg List.length hsame
    simp [Path.child] at hlength
  | @inline path fields rest decisions _ =>
    have hat := hplaced.pending_at _ (List.mem_cons_self ..)
    exact h.replace _ (below_inside path fields) (below_aside hat)
  | @enter path first items rest decisions =>
    exact h.replace [(path.element, first)]
      (List.forall_mem_singleton.mpr path.suffix_element) (List.pairwise_singleton ..)
  | passEmpty => exact h.replace [] (by simp) .nil
  | passScalar _ => exact h.replace [] (by simp) .nil

/-- A run of the planner keeps the order of what is decided and what is pending. -/
theorem InOrder.run (hdistinct : document.DistinctKeys) {m n : Moment} (h : InOrder document m)
    (hplaced : Placed document m) (hrun : Relation.ReflTransGen planner.Move m n) :
    InOrder document n := by
  induction hrun with
  | refl => exact h
  | tail hbefore hmove ih => exact ih.move (hplaced.run hdistinct hbefore) hmove

/-! ## No object is passed over -/

/-- Every object that qualifies has been decided on or lies inside a value still to be visited. -/
def Covered (planner : Planner) (document : Value) (m : Moment) : Prop :=
  ∀ path fields, document.at? path = some (.object fields) → planner.qualifies path fields = true →
    (∃ d ∈ m.decisions, d.path = path) ∨ ∃ p ∈ m.pending, p.1 <:+ path

theorem Covered.start (planner : Planner) (document : Value) :
    Covered planner document ⟨[(.root, document)], []⟩ :=
  fun _ _ _ _ => .inr ⟨_, List.mem_singleton_self _, List.nil_suffix⟩

theorem Placed.visited_at {v : Value} {path : Path} {rest : List (Path × Value)}
    {decisions : List Decision} (h : Placed document ⟨(path, v) :: rest, decisions⟩) :
    document.at? path = some v :=
  h.pending_at _ (List.mem_cons_self ..)

/-- An object that qualifies and lies inside a value that a move visits is decided on by the move, or
it lies inside a value that is visited next, or inside an object that the move lets share a
fragment. -/
theorem Move.covers {m n : Moment} (hmove : planner.Move m n) (hplaced : Placed document m)
    {path : Path} {fields : Fields} (hat : document.at? path = some (.object fields))
    (hqualifies : planner.qualifies path fields = true) (hinside : ∃ p ∈ m.pending, p.1 <:+ path) :
    (∃ d ∈ n.decisions, d.path = path) ∨ (∃ p ∈ n.pending, p.1 <:+ path) ∨
      (planner.options.reuseIdentical = true ∧
        ∃ d ∈ n.decisions, d.origin = .reused ∧ d.path <:+ path ∧ d.path ≠ path) := by
  obtain ⟨p, hp, hsuffix⟩ := hinside
  cases hmove with
  | @share visited _ name rest decisions _ hname =>
    rcases List.mem_cons.mp hp with rfl | hrest
    · by_cases hsame : visited = path
      · exact .inl ⟨_, List.mem_append_right _ (List.mem_singleton_self _), hsame⟩
      · refine .inr (.inr ⟨(exists_of_reusable? hname).1, ?_⟩)
        exact ⟨_, List.mem_append_right _ (List.mem_singleton_self _), rfl, hsuffix, hsame⟩
    · exact .inr (.inl ⟨p, hrest, hsuffix⟩)
  | @extract visited others rest decisions _ _ =>
    rcases List.mem_cons.mp hp with rfl | hrest
    · by_cases hsame : visited = path
      · exact .inl ⟨_, List.mem_append_right _ (List.mem_singleton_self _), hsame⟩
      · obtain ⟨field, hfield, hchild⟩ :=
          Value.exists_child_of_suffix hplaced.visited_at hat hsuffix hsame
        exact .inr (.inl ⟨_, List.mem_append_left _ (List.mem_map_of_mem hfield), hchild⟩)
    · exact .inr (.inl ⟨p, List.mem_append_right _ hrest, hsuffix⟩)
  | @inline visited others rest decisions hnot =>
    rcases List.mem_cons.mp hp with rfl | hrest
    · have hne : visited ≠ path := by
        rintro rfl
        obtain rfl : others = fields := by simpa using hplaced.visited_at.symm.trans hat
        rw [hqualifies] at hnot
        cases hnot
      obtain ⟨field, hfield, hchild⟩ :=
        Value.exists_child_of_suffix hplaced.visited_at hat hsuffix hne
      exact .inr (.inl ⟨_, List.mem_append_left _ (List.mem_map_of_mem hfield), hchild⟩)
    · exact .inr (.inl ⟨p, List.mem_append_right _ hrest, hsuffix⟩)
  | @enter visited first items rest decisions =>
    rcases List.mem_cons.mp hp with rfl | hrest
    · have hne : visited ≠ path := by
        rintro rfl
        simpa using hplaced.visited_at.symm.trans hat
      have hitem := (Value.element_suffix_of_suffix hplaced.visited_at hat hsuffix hne).1
      exact .inr (.inl ⟨_, List.mem_cons_self .., hitem⟩)
    · exact .inr (.inl ⟨p, List.mem_cons_of_mem _ hrest, hsuffix⟩)
  | @passEmpty visited rest decisions =>
    rcases List.mem_cons.mp hp with rfl | hrest
    · have hne : visited ≠ path := by
        rintro rfl
        simpa using hplaced.visited_at.symm.trans hat
      exact absurd rfl (Value.element_suffix_of_suffix hplaced.visited_at hat hsuffix hne).2
    · exact .inr (.inl ⟨p, hrest, hsuffix⟩)
  | @passScalar visited v rest decisions hscalar =>
    rcases List.mem_cons.mp hp with rfl | hrest
    · obtain rfl := Value.eq_of_scalar_suffix hscalar hplaced.visited_at hat hsuffix
      obtain rfl : v = .object fields := Option.some.inj (hplaced.visited_at.symm.trans hat)
      cases hscalar
    · exact .inr (.inl ⟨p, hrest, hsuffix⟩)

/-- Without sharing no move passes over an object that qualifies. -/
theorem Covered.move (hoff : planner.options.reuseIdentical = false) {m n : Moment}
    (h : Covered planner document m) (hplaced : Placed document m) (hmove : planner.Move m n) :
    Covered planner document n := by
  intro path fields hat hqualifies
  rcases h path fields hat hqualifies with ⟨d, hd, hpath⟩ | hinside
  · exact .inl ⟨d, (decisions_prefix_of_run (.single hmove)).subset hd, hpath⟩
  · rcases hmove.covers hplaced hat hqualifies hinside with hdecided | hnext | ⟨hon, _⟩
    · exact .inl hdecided
    · exact .inr hnext
    · rw [hoff] at hon
      cases hon

/-- Along a run no object that qualifies is passed over. -/
theorem Covered.run (hdistinct : document.DistinctKeys)
    (hoff : planner.options.reuseIdentical = false) {m n : Moment}
    (h : Covered planner document m) (hplaced : Placed document m)
    (hrun : Relation.ReflTransGen planner.Move m n) : Covered planner document n := by
  induction hrun with
  | refl => exact h
  | tail hbefore hmove ih => exact ih.move hoff (hplaced.run hdistinct hbefore) hmove

/-! ## The selection -/

/-- Decisions follow the pre-order, and without sharing there is one on every object that
qualifies. -/
theorem plan_inOrder (planner : Planner) (hdistinct : document.DistinctKeys) :
    (planner.plan document).decisions.Pairwise fun a b => Path.Before document a.path b.path := by
  by_cases henabled : planner.options.enabled = true
  · have hrun := run_plan henabled document
    exact ((InOrder.start document).run hdistinct (.start document) hrun).decisions
  · rw [plan, if_neg henabled]
    exact .nil

/-- Every object that qualifies gets a decision. -/
theorem exists_decision_of_qualifies (hdistinct : document.DistinctKeys)
    (hoff : planner.options.reuseIdentical = false) (henabled : planner.options.enabled = true)
    {path : Path} {fields : Fields} (hat : document.at? path = some (.object fields))
    (hqualifies : planner.qualifies path fields = true) :
    ∃ d ∈ (planner.plan document).decisions, d.path = path := by
  have hrun := run_plan henabled document
  have hcovered := (Covered.start planner document).run hdistinct hoff (.start document) hrun
  rcases hcovered path fields hat hqualifies with hdecided | ⟨p, hp, _⟩
  · exact hdecided
  · cases hp

/-- Without sharing, the plan has a name for a path exactly if there are fragments at all and the
path leads to an object that is not the document nor the first item of a document that is an array,
that is near enough to the root and has more fields than the limit. The fragments are these objects
in pre-order, each once; the base of the name of each is made of the last key on its path, or of the
name of the document, put in the singular once for every item at the end of the path. -/
theorem plan_selects (planner : Planner) {document : Value} (hdistinct : document.DistinctKeys)
    (hoff : planner.options.reuseIdentical = false) :
    let plan := planner.plan document
    (∀ path, (plan.nameAt? path).isSome ↔
      planner.options.enabled = true ∧ path ≠ [] ∧ path ≠ [.item] ∧
        path.length ≤ planner.options.maxDepth.toNat ∧
        ∃ fields, document.at? path = some (.object fields) ∧
          planner.options.minFields.toNat < fields.length) ∧
      (∀ path, path ∈ plan.fragments.map (·.path) ↔ (plan.nameAt? path).isSome) ∧
      (plan.fragments.map (·.path)).Nodup ∧
      plan.fragments.Pairwise (fun f g => Path.Before document f.path g.path) ∧
      (∀ f ∈ plan.fragments, document.at? f.path = some (.object f.fields) ∧
        plan.nameAt? f.path = some f.name) ∧
      ∀ (i : ℕ) (f : Decision), plan.fragments[i]? = some f →
        Name.FirstFree (planner.rootName :: (plan.fragments.take i).map (·.name))
          (Name.identifier (Name.ofItem^[f.path.trailingItems]
            (Name.lowerCamelCase (f.path.lastKey?.getD planner.rootName)))) f.name := by
  intro plan
  have hsound : plan.Sound planner document := planner.plan_sound hdistinct
  have hall : plan.fragments = plan.decisions := hsound.fragments_eq hoff
  have hsome (path : Path) : (plan.nameAt? path).isSome ↔ path ∈ plan.decisions.map (·.path) := by
    rw [Option.isSome_iff_ne_none, Ne, Plan.nameAt?_eq_none_iff]
    simp
  refine ⟨fun path => ?_, fun path => by rw [hall, hsome], ?_, ?_, fun f hf => ?_,
    fun i f hf => ?_⟩
  · rw [hsome]
    constructor
    · intro hmem
      obtain ⟨d, hd, rfl⟩ := List.mem_map.mp hmem
      have hqualifies := hsound.named.qualified d hd
      simp only [qualifies, Bool.and_eq_true, Bool.not_eq_true', decide_eq_true_eq] at hqualifies
      obtain ⟨⟨hdocument, hdepth⟩, hfields⟩ := hqualifies
      obtain ⟨hroot, hitem⟩ := Path.isDocument_eq_false_iff.mp hdocument
      have henabled : planner.options.enabled = true := by
        by_contra hdisabled
        simp [plan, Planner.plan, hdisabled] at hd
      exact ⟨henabled, hroot, hitem, hdepth, d.fields, hsound.located d hd, hfields⟩
    · rintro ⟨henabled, hroot, hitem, hdepth, fields, hat, hfields⟩
      have hqualifies : planner.qualifies path fields = true := by
        have hdocument := Path.isDocument_eq_false_iff.mpr ⟨hroot, hitem⟩
        simp [qualifies, hdocument, hdepth, hfields]
      obtain ⟨d, hd, rfl⟩ :=
        exists_decision_of_qualifies hdistinct hoff henabled hat hqualifies
      exact List.mem_map_of_mem hd
  · rw [hall]
    exact hsound.paths_nodup
  · rw [hall]
    exact planner.plan_inOrder hdistinct
  · rw [hall] at hf
    exact ⟨hsound.located f hf, hsound.nameAt?_of_mem hf⟩
  · rw [← Name.hint_eq]
    exact planner.plan_firstChoices document i f hf

/-- A list of orders, each with its lines in groups. -/
def orders : Value :=
  let line : Value := .object [("sku", .null), ("price", .null), ("count", .null)]
  let order : Value :=
    .object [("id", .null), ("total", .null), ("lines", .array [.array [line]])]
  .object [("orders", .array [order])]

theorem orders_distinctKeys : orders.DistinctKeys := by
  have hnull : Value.null.DistinctKeys := .scalar rfl
  have hitem {v : Value} (h : v.DistinctKeys) : (Value.array [v]).DistinctKeys :=
    .array (by simpa using h)
  have hline : (Value.object [("sku", .null), ("price", .null), ("count", .null)]).DistinctKeys :=
    .object (by decide) (by simpa using hnull)
  have horder := hitem (hitem hline)
  exact .object (by decide) (List.forall_mem_singleton.mpr
    (hitem (.object (by decide) (by simpa using ⟨hnull, horder⟩))))

/-- An order is named after the one key above it, a line after the last one, and both in the
singular; the line stands behind the order around it. -/
theorem plan_selects_orders :
    let planner : Planner := ⟨{}, .standard, "body"⟩
    let order : Path := [.item, .key "orders"]
    let line : Path := [.item, .item, .key "lines", .item, .key "orders"]
    orders.DistinctKeys ∧ planner.options.reuseIdentical = false ∧
      ((planner.plan orders).nameAt? line).isSome ∧
      (planner.plan orders).fragments.map (fun f => (f.path, f.name)) =
        [(order, "order"), (line, "lineItem")] ∧
      (planner.plan orders).fragments.Pairwise fun f g => Path.Before orders f.path g.path := by
  intro planner order line
  obtain ⟨hnamed, _, _, hordered, _⟩ := planner.plan_selects orders_distinctKeys rfl
  refine ⟨orders_distinctKeys, rfl, (hnamed line).mpr ?_, by decide +kernel, hordered⟩
  exact ⟨rfl, by decide, by decide, by decide, _, rfl, by decide⟩

end Planner
end ContractDraft

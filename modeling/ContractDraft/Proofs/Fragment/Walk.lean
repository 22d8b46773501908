import ContractDraft.Fragment.Plan
import ContractDraft.Proofs.Fragment.Name
import ContractDraft.Proofs.Json.Position
import Mathlib.Logic.Relation

/-!
# The planning walk, move by move

`Planner.walk` is the planner's visit of a document with nothing kept beside the decisions: hints
and depths are read off paths, names that are taken and structures that are shared off the decisions
made so far. (That the planner decides the same is `Proofs/Fragment/Visit`.) Here the walk is a
machine: a `Moment` holds the values still to be visited and the decisions made so far, a `Move`
visits the first of these values. Its moves are the only place where the recursion is unfolded;
everything that is known about plans is an invariant of single moves:

* `run_walk`, the walk is a run of the machine;
* `Placed`, decisions stand in the order of the walk, each at the path of its own object;
* `Named`, new fragments have names of their own, and every other decision repeats such a name.
-/

namespace ContractDraft

open Relation (ReflTransGen)

namespace Planner

/-! ## The walk -/

/-- Whether the object at `path` may become a fragment. -/
def qualifies (planner : Planner) (path : Path) (fields : Fields) : Bool :=
  !path.isDocument && path.length ≤ planner.options.maxDepth.toNat &&
    planner.options.minFields.toNat < fields.length

/-- The names that a new fragment must not have: the document's and those of earlier fragments. -/
def taken (planner : Planner) (decisions : List Decision) : List String :=
  planner.rootName :: decisions.map (·.name)

/-- The name of an earlier fragment that has the structure of this object. -/
def reusable? (planner : Planner) (decisions : List Decision) (fields : Fields) : Option String :=
  if planner.options.reuseIdentical then
    let wanted := signature planner.policy (.object fields)
    (decisions.find? fun d =>
      d.origin = .extracted ∧ signature planner.policy (.object d.fields) = wanted).map (·.name)
  else none

/-- The decision that makes the object at `path` a new fragment. -/
def extract (planner : Planner) (decisions : List Decision) (path : Path) (fields : Fields) :
    Decision where
  path := path
  name := Name.fresh (planner.taken decisions) (Name.identifier (Name.hint planner.rootName path))
  fields := fields
  origin := .extracted

mutual

/-- The decisions after those made so far and those on the value at `path`. Inside an object that
shares an earlier fragment nothing is left to decide. -/
def walk (planner : Planner) (path : Path) : Value → List Decision → List Decision
  | .object fields, decisions =>
    if planner.qualifies path fields then
      match planner.reusable? decisions fields with
      | some name => decisions ++ [⟨path, name, fields, .reused⟩]
      | none =>
        walkFields planner path fields (decisions ++ [planner.extract decisions path fields])
    else walkFields planner path fields decisions
  | .array (first :: _), decisions => walk planner path.element first decisions
  | _, decisions => decisions
termination_by structural v => v

/-- The decisions after those made so far and those on the fields of the object at `path`. -/
def walkFields (planner : Planner) (path : Path) :
    List (String × Value) → List Decision → List Decision
  | [], decisions => decisions
  | (key, v) :: rest, decisions =>
    walkFields planner path rest (walk planner (path.child key) v decisions)
termination_by structural fields => fields

end

/-! ## The machine -/

/-- A moment of the walk. -/
structure Moment where
  /-- The values still to be visited, the next one first. -/
  pending : List (Path × Value)
  /-- The decisions made so far. -/
  decisions : List Decision

/-- The values of the fields of the object at `path`. -/
def below (path : Path) (fields : Fields) : List (Path × Value) :=
  fields.map fun field => (path.child field.1, field.2)

/-- One visit. -/
inductive Move (planner : Planner) : Moment → Moment → Prop where
  | share {path : Path} {fields : Fields} {name : String} {rest : List (Path × Value)}
      {decisions : List Decision} :
      planner.qualifies path fields = true → planner.reusable? decisions fields = some name →
      Move planner ⟨(path, .object fields) :: rest, decisions⟩
        ⟨rest, decisions ++ [⟨path, name, fields, .reused⟩]⟩
  | extract {path : Path} {fields : Fields} {rest : List (Path × Value)}
      {decisions : List Decision} :
      planner.qualifies path fields = true → planner.reusable? decisions fields = none →
      Move planner ⟨(path, .object fields) :: rest, decisions⟩
        ⟨below path fields ++ rest, decisions ++ [planner.extract decisions path fields]⟩
  | inline {path : Path} {fields : Fields} {rest : List (Path × Value)}
      {decisions : List Decision} :
      planner.qualifies path fields = false →
      Move planner ⟨(path, .object fields) :: rest, decisions⟩
        ⟨below path fields ++ rest, decisions⟩
  | enter {path : Path} {first : Value} {items : List Value} {rest : List (Path × Value)}
      {decisions : List Decision} :
      Move planner ⟨(path, .array (first :: items)) :: rest, decisions⟩
        ⟨(path.element, first) :: rest, decisions⟩
  | passEmpty {path : Path} {rest : List (Path × Value)} {decisions : List Decision} :
      Move planner ⟨(path, .array []) :: rest, decisions⟩ ⟨rest, decisions⟩
  | passScalar {path : Path} {v : Value} {rest : List (Path × Value)}
      {decisions : List Decision} :
      v.isScalar = true → Move planner ⟨(path, v) :: rest, decisions⟩ ⟨rest, decisions⟩

variable {planner : Planner}

theorem walk_scalar {v : Value} (h : v.isScalar = true) (path : Path) (decisions : List Decision) :
    planner.walk path v decisions = decisions := by
  cases v with
  | array items => cases h
  | object fields => cases h
  | _ => rw [walk]; all_goals simp

/-- Visiting fields one after the other is a run if visiting each of them is one. -/
theorem run_walkFields {fields : Fields}
    (h : ∀ field ∈ fields, ∀ path rest decisions,
      ReflTransGen planner.Move ⟨(path, field.2) :: rest, decisions⟩
        ⟨rest, planner.walk path field.2 decisions⟩)
    (path : Path) (rest : List (Path × Value)) (decisions : List Decision) :
    ReflTransGen planner.Move ⟨below path fields ++ rest, decisions⟩
      ⟨rest, planner.walkFields path fields decisions⟩ := by
  induction fields generalizing decisions with
  | nil => rw [walkFields]; exact .refl
  | cons field fields ih =>
    rw [walkFields]
    have hfirst := h field (List.mem_cons_self ..) (path.child field.1)
      (below path fields ++ rest) decisions
    exact hfirst.trans (ih (fun other hmem => h other (List.mem_cons_of_mem _ hmem)) _)

/-- The walk is a run of the machine. -/
theorem run_walk (v : Value) : ∀ (path : Path) (rest : List (Path × Value))
    (decisions : List Decision),
    ReflTransGen planner.Move ⟨(path, v) :: rest, decisions⟩
      ⟨rest, planner.walk path v decisions⟩ := by
  induction v using Value.visit_induction with
  | object fields ih =>
    intro path rest decisions
    rw [walk]
    split
    · rename_i hqualifies
      split
      · rename_i name hname
        exact .single (.share hqualifies hname)
      · rename_i hnone
        exact .head (.extract hqualifies hnone) (run_walkFields ih _ _ _)
    · rename_i hqualifies
      exact .head (.inline (by simpa using hqualifies)) (run_walkFields ih _ _ _)
  | empty =>
    intro path rest decisions
    rw [walk]
    · exact .single .passEmpty
    all_goals simp
  | array first items ih =>
    intro path rest decisions
    rw [walk]
    exact .head .enter (ih _ _ _)
  | scalar v h =>
    intro path rest decisions
    rw [walk_scalar h]
    exact .single (.passScalar h)

/-! ## Where decisions are made -/

/-- Every value of a moment stands at its path in the document; what is still to be visited lies
apart from each other and is not led through by what was decided; and no decision was made above an
earlier one. -/
structure Placed (document : Value) (m : Moment) : Prop where
  pending_at : ∀ p ∈ m.pending, document.at? p.1 = some p.2
  pending_apart : m.pending.Pairwise fun p q => p.1.Apart q.1
  pending_ahead : ∀ p ∈ m.pending, ∀ d ∈ m.decisions, ¬ p.1 <:+ d.path
  decisions_at : ∀ d ∈ m.decisions, document.at? d.path = some (.object d.fields)
  decisions_ordered : m.decisions.Pairwise fun a b => ¬ b.path <:+ a.path

theorem Placed.start (document : Value) : Placed document ⟨[(.root, document)], []⟩ where
  pending_at := by simp
  pending_apart := List.pairwise_singleton ..
  pending_ahead := by simp
  decisions_at := by simp
  decisions_ordered := .nil

/-- The first value still to be visited gives way to values inside it. -/
theorem Placed.replace {document v : Value} {path : Path} {rest : List (Path × Value)}
    {decisions : List Decision} (h : Placed document ⟨(path, v) :: rest, decisions⟩)
    (inner : List (Path × Value)) (hat : ∀ p ∈ inner, document.at? p.1 = some p.2)
    (hinside : ∀ p ∈ inner, path <:+ p.1)
    (hapart : inner.Pairwise fun p q => p.1.Apart q.1) :
    Placed document ⟨inner ++ rest, decisions⟩ where
  pending_at := List.forall_mem_append.mpr ⟨hat, (List.forall_mem_cons.mp h.pending_at).2⟩
  pending_apart := by
    have hcons := List.pairwise_cons.mp h.pending_apart
    refine List.pairwise_append.mpr ⟨hapart, hcons.2, fun p hp q hq => ?_⟩
    exact (hcons.1 q hq).of_suffix (hinside p hp)
  pending_ahead := by
    have hcons := List.forall_mem_cons.mp h.pending_ahead
    refine List.forall_mem_append.mpr ⟨fun p hp d hd hpd => ?_, hcons.2⟩
    exact hcons.1 d hd ((hinside p hp).trans hpd)
  decisions_at := h.decisions_at
  decisions_ordered := h.decisions_ordered

/-- A decision on an object that no value still to be visited leads through. -/
theorem Placed.decide {document : Value} {pending : List (Path × Value)}
    {decisions : List Decision} (h : Placed document ⟨pending, decisions⟩) {d : Decision}
    (hat : document.at? d.path = some (.object d.fields))
    (hbefore : ∀ other ∈ decisions, ¬ d.path <:+ other.path)
    (hafter : ∀ p ∈ pending, ¬ p.1 <:+ d.path) :
    Placed document ⟨pending, decisions ++ [d]⟩ where
  pending_at := h.pending_at
  pending_apart := h.pending_apart
  pending_ahead p hp :=
    List.forall_mem_append.mpr ⟨h.pending_ahead p hp, List.forall_mem_singleton.mpr (hafter p hp)⟩
  decisions_at := List.forall_mem_append.mpr ⟨h.decisions_at, List.forall_mem_singleton.mpr hat⟩
  decisions_ordered := by
    refine List.pairwise_append.mpr ⟨h.decisions_ordered, List.pairwise_singleton .., ?_⟩
    exact fun other hother => List.forall_mem_singleton.mpr (hbefore other hother)

/-- The fields of an object lie apart, as its keys are distinct. -/
theorem below_apart (path : Path) {fields : Fields} (hkeys : (fields.map (·.1)).Nodup) :
    (below path fields).Pairwise fun p q => p.1.Apart q.1 := by
  rw [below, List.pairwise_map]
  exact (List.pairwise_map.mp hkeys).imp Path.child_apart

/-- The fields of the object that is visited stand in for it. -/
theorem Placed.expand {document : Value} (hdistinct : document.DistinctKeys) {path : Path}
    {fields : Fields} {rest : List (Path × Value)} {decisions : List Decision}
    (h : Placed document ⟨(path, .object fields) :: rest, decisions⟩) :
    Placed document ⟨below path fields ++ rest, decisions⟩ := by
  have hat := h.pending_at _ (List.mem_cons_self ..)
  have hkeys := (hdistinct.at? hat).keys_nodup
  refine h.replace _ ?_ ?_ (below_apart path hkeys)
  · intro p hp
    obtain ⟨field, hmem, rfl⟩ := List.mem_map.mp hp
    exact Value.at?_child hat hkeys hmem
  · intro p hp
    obtain ⟨field, _, rfl⟩ := List.mem_map.mp hp
    exact path.suffix_child field.1

/-- Nothing that is still to be visited after an object leads through it from above. -/
theorem Placed.rest_not_suffix {document v : Value} {path : Path} {rest : List (Path × Value)}
    {decisions : List Decision} (h : Placed document ⟨(path, v) :: rest, decisions⟩) :
    ∀ p ∈ rest, ¬ p.1 <:+ path :=
  fun p hp => ((List.pairwise_cons.mp h.pending_apart).1 p hp).2

/-- After a move what is pending still stands at its path. -/
theorem Placed.move {document : Value} (hdistinct : document.DistinctKeys) {m n : Moment}
    (h : Placed document m) (hmove : planner.Move m n) : Placed document n := by
  cases hmove with
  | share _ _ =>
    have hnext := h.replace [] (by simp) (by simp) .nil
    exact hnext.decide (h.pending_at _ (List.mem_cons_self ..))
      (h.pending_ahead _ (List.mem_cons_self ..)) h.rest_not_suffix
  | extract _ _ =>
    refine (h.expand hdistinct).decide (h.pending_at _ (List.mem_cons_self ..))
      (h.pending_ahead _ (List.mem_cons_self ..)) fun p hp => ?_
    rcases List.mem_append.mp hp with hbelow | hrest
    · obtain ⟨field, _, rfl⟩ := List.mem_map.mp hbelow
      exact Path.not_child_suffix _ field.1
    · exact h.rest_not_suffix p hrest
  | inline _ => exact h.expand hdistinct
  | enter =>
    refine h.replace [_] ?_ ?_ (List.pairwise_singleton ..)
    · simpa using Value.at?_element (h.pending_at _ (List.mem_cons_self ..))
    · simpa using Path.suffix_element _
  | passEmpty => exact h.replace [] (by simp) (by simp) .nil
  | passScalar _ => exact h.replace [] (by simp) (by simp) .nil

/-! ## What decisions are called -/

/-- Every decided object qualifies; new fragments have names of their own; every decision has the
name of a fragment of its structure; and without sharing every decision makes a fragment. -/
structure Named (planner : Planner) (decisions : List Decision) : Prop where
  qualified : ∀ d ∈ decisions, planner.qualifies d.path d.fields = true
  fresh : ((decisions.filter fun d => d.origin = .extracted).map (·.name)).Nodup
  source : ∀ d ∈ decisions, ∃ f ∈ decisions, f.origin = .extracted ∧ f.name = d.name ∧
    signature planner.policy (.object f.fields) = signature planner.policy (.object d.fields)
  unshared : planner.options.reuseIdentical = false → ∀ d ∈ decisions, d.origin = .extracted

theorem Named.start (planner : Planner) : Named planner [] where
  qualified := by simp
  fresh := .nil
  source := by simp
  unshared := by simp

/-- An object that shares a fragment has the name and the structure of that fragment. -/
theorem exists_of_reusable? {decisions : List Decision} {fields : Fields} {name : String}
    (h : planner.reusable? decisions fields = some name) :
    planner.options.reuseIdentical = true ∧ ∃ f ∈ decisions, f.origin = .extracted ∧ f.name = name ∧
      signature planner.policy (.object f.fields) = signature planner.policy (.object fields) := by
  rw [reusable?] at h
  split at h
  · rename_i hreuse
    obtain ⟨f, hfind, rfl⟩ := Option.map_eq_some_iff.mp h
    have hf := List.find?_some hfind
    simp only [decide_eq_true_eq] at hf
    exact ⟨hreuse, f, List.mem_of_find?_eq_some hfind, hf.1, rfl, hf.2⟩
  · cases h

/-- A new fragment has a name that no earlier decision has. -/
theorem extract_name_not_mem (planner : Planner) (decisions : List Decision) (path : Path)
    (fields : Fields) :
    (planner.extract decisions path fields).name ∉ planner.rootName :: decisions.map (·.name) :=
  Name.fresh_not_mem _ _

/-- Names stay as described when a name is shared. -/
theorem Named.share {path : Path} {fields : Fields} {name : String} {decisions : List Decision}
    (h : Named planner decisions) (hqualifies : planner.qualifies path fields = true)
    (hname : planner.reusable? decisions fields = some name) :
    Named planner (decisions ++ [⟨path, name, fields, .reused⟩]) where
  qualified :=
    List.forall_mem_append.mpr ⟨h.qualified, List.forall_mem_singleton.mpr hqualifies⟩
  fresh := by simpa using h.fresh
  source := by
    obtain ⟨_, f, hf, hsource⟩ := exists_of_reusable? hname
    refine List.forall_mem_append.mpr ⟨fun d hd => ?_, List.forall_mem_singleton.mpr ?_⟩
    · obtain ⟨f, hf, hsource⟩ := h.source d hd
      exact ⟨f, List.mem_append_left _ hf, hsource⟩
    · exact ⟨f, List.mem_append_left _ hf, hsource⟩
  unshared hoff := by
    have hon := (exists_of_reusable? hname).1
    rw [hoff] at hon
    cases hon

/-- Names stay as described when a fragment is extracted. -/
theorem Named.extract {path : Path} {fields : Fields} {decisions : List Decision}
    (h : Named planner decisions) (hqualifies : planner.qualifies path fields = true) :
    Named planner (decisions ++ [planner.extract decisions path fields]) where
  qualified :=
    List.forall_mem_append.mpr ⟨h.qualified, List.forall_mem_singleton.mpr hqualifies⟩
  fresh := by
    have hnot := extract_name_not_mem planner decisions path fields
    rw [List.filter_append, List.map_append]
    refine List.nodup_append.mpr ⟨h.fresh, by simp [Planner.extract], ?_⟩
    intro name hold new hnew hsame
    obtain ⟨d, hd, rfl⟩ := List.mem_map.mp hold
    have hnew : new = (planner.extract decisions path fields).name := by
      simpa [Planner.extract] using hnew
    refine hnot (List.mem_cons_of_mem _ (List.mem_map.mpr ⟨d, (List.mem_filter.mp hd).1, ?_⟩))
    rw [hsame, hnew]
  source := by
    refine List.forall_mem_append.mpr ⟨fun d hd => ?_, List.forall_mem_singleton.mpr ?_⟩
    · obtain ⟨f, hf, hsource⟩ := h.source d hd
      exact ⟨f, List.mem_append_left _ hf, hsource⟩
    · exact ⟨_, List.mem_append_right _ (List.mem_singleton_self _), rfl, rfl, rfl⟩
  unshared hoff := List.forall_mem_append.mpr ⟨h.unshared hoff, List.forall_mem_singleton.mpr rfl⟩

/-- Names stay as described along a move of the planner. -/
theorem Named.move {m n : Moment} (h : Named planner m.decisions) (hmove : planner.Move m n) :
    Named planner n.decisions := by
  cases hmove with
  | share hqualifies hname => exact h.share hqualifies hname
  | extract hqualifies _ => exact h.extract hqualifies
  | inline _ => exact h
  | enter => exact h
  | passEmpty => exact h
  | passScalar _ => exact h

/-! ## Runs -/

theorem Placed.run {document : Value} (hdistinct : document.DistinctKeys) {m n : Moment}
    (h : Placed document m) (hrun : ReflTransGen planner.Move m n) : Placed document n := by
  induction hrun with
  | refl => exact h
  | tail _ hmove ih => exact ih.move hdistinct hmove

theorem Named.run {m n : Moment} (h : Named planner m.decisions)
    (hrun : ReflTransGen planner.Move m n) : Named planner n.decisions := by
  induction hrun with
  | refl => exact h
  | tail _ hmove ih => exact ih.move hmove

/-- Decisions are never taken back. -/
theorem decisions_prefix_of_run {m n : Moment} (hrun : ReflTransGen planner.Move m n) :
    m.decisions <+: n.decisions := by
  induction hrun with
  | refl => exact List.prefix_rfl
  | tail _ hmove ih =>
    refine ih.trans ?_
    cases hmove with
    | share _ _ => exact List.prefix_append ..
    | extract _ _ => exact List.prefix_append ..
    | inline _ => exact List.prefix_rfl
    | enter => exact List.prefix_rfl
    | passEmpty => exact List.prefix_rfl
    | passScalar _ => exact List.prefix_rfl

/-- What is pending after a move lies below what was pending before. -/
theorem exists_pending_of_mem_below {path : Path} {v : Value} {fields : Fields}
    {rest : List (Path × Value)} {p : Path × Value} (hp : p ∈ below path fields ++ rest) :
    ∃ q ∈ (path, v) :: rest, q.1 <:+ p.1 := by
  rcases List.mem_append.mp hp with hbelow | hrest
  · obtain ⟨field, _, rfl⟩ := List.mem_map.mp hbelow
    exact ⟨_, List.mem_cons_self .., path.suffix_child field.1⟩
  · exact ⟨p, List.mem_cons_of_mem _ hrest, List.suffix_rfl⟩

/-- What is visited later lies inside what was to be visited before. -/
theorem exists_pending_of_move {m n : Moment} (hmove : planner.Move m n) {p : Path × Value}
    (hp : p ∈ n.pending) : ∃ q ∈ m.pending, q.1 <:+ p.1 := by
  cases hmove with
  | share _ _ => exact ⟨p, List.mem_cons_of_mem _ hp, List.suffix_rfl⟩
  | extract _ _ => exact exists_pending_of_mem_below hp
  | inline _ => exact exists_pending_of_mem_below hp
  | enter =>
    rcases List.mem_cons.mp hp with rfl | hrest
    · exact ⟨_, List.mem_cons_self .., Path.suffix_element _⟩
    · exact ⟨p, List.mem_cons_of_mem _ hrest, List.suffix_rfl⟩
  | passEmpty => exact ⟨p, List.mem_cons_of_mem _ hp, List.suffix_rfl⟩
  | passScalar _ => exact ⟨p, List.mem_cons_of_mem _ hp, List.suffix_rfl⟩

/-- A move decides on nothing but the value that it visits. -/
theorem mem_decisions_of_move {m n : Moment} (hmove : planner.Move m n) {d : Decision}
    (hd : d ∈ n.decisions) : d ∈ m.decisions ∨ ∃ q ∈ m.pending, q.1 <:+ d.path := by
  cases hmove with
  | share _ _ =>
    refine (List.mem_append.mp hd).imp_right fun hnew => ?_
    rw [List.mem_singleton.mp hnew]
    exact ⟨_, List.mem_cons_self .., List.suffix_rfl⟩
  | extract _ _ =>
    refine (List.mem_append.mp hd).imp_right fun hnew => ?_
    rw [List.mem_singleton.mp hnew]
    exact ⟨_, List.mem_cons_self .., List.suffix_rfl⟩
  | inline _ => exact .inl hd
  | enter => exact .inl hd
  | passEmpty => exact .inl hd
  | passScalar _ => exact .inl hd

/-- A decision that is still to come lies inside a value that is still to be visited. -/
theorem mem_decisions_of_run {m n : Moment} (hrun : ReflTransGen planner.Move m n) {d : Decision}
    (hd : d ∈ n.decisions) : d ∈ m.decisions ∨ ∃ q ∈ m.pending, q.1 <:+ d.path := by
  induction hrun using Relation.ReflTransGen.head_induction_on with
  | refl => exact .inl hd
  | head hmove _ ih =>
    rcases ih with hdecided | ⟨p, hp, hsuffix⟩
    · exact mem_decisions_of_move hmove hdecided
    · obtain ⟨q, hq, hqp⟩ := exists_pending_of_move hmove hp
      exact .inr ⟨q, hq, hqp.trans hsuffix⟩

end Planner
end ContractDraft

import ContractDraft.Proofs.Fragment.Visit

/-!
# What plans promise

The invariants of the planning walk, read at its end: a plan is a table that gives each of its paths
one name, every entry belongs to the object that its path leads to, and every name belongs to one
fragment, whose object has the structure of all objects of that name.
-/

namespace ContractDraft

namespace Plan

/-- What a plan made for a document promises to those who use it. -/
structure Sound (planner : Planner) (document : Value) (plan : Plan) : Prop where
  located : ∀ d ∈ plan.decisions, document.at? d.path = some (.object d.fields)
  ordered : plan.decisions.Pairwise fun a b => ¬ b.path <:+ a.path
  named : planner.Named plan.decisions

theorem Sound.empty (planner : Planner) (document : Value) : Sound planner document ⟨[]⟩ where
  located := by simp
  ordered := .nil
  named := .start planner

end Plan

/-- The whole walk is a run that leaves nothing to be visited. -/
theorem Planner.run_plan {planner : Planner} (henabled : planner.options.enabled = true)
    (document : Value) :
    Relation.ReflTransGen planner.Move ⟨[(.root, document)], []⟩
      ⟨[], (planner.plan document).decisions⟩ := by
  rw [Planner.plan, if_pos henabled, visit_eq_walk]
  exact run_walk document .root [] []

/-- The planner keeps the promises. -/
theorem Planner.plan_sound (planner : Planner) {document : Value}
    (hdistinct : document.DistinctKeys) : (planner.plan document).Sound planner document := by
  by_cases henabled : planner.options.enabled = true
  · have hrun := run_plan henabled document
    have hplaced := (Placed.start document).run hdistinct hrun
    exact ⟨hplaced.decisions_at, hplaced.decisions_ordered, (Named.start planner).run hrun⟩
  · have hempty : planner.plan document = ⟨[]⟩ := by
      rw [Planner.plan, if_neg henabled]
    rw [hempty]
    exact .empty planner document

/-- The length of the signature of the object that a decision was made on. -/
def Planner.measure (planner : Planner) (e : Decision) : ℕ :=
  (signature planner.policy (.object e.fields)).length

namespace Plan

variable {planner : Planner} {document : Value} {plan : Plan}

/-! ## The table of paths -/

theorem nameAt?_eq_none_iff {path : Path} :
    plan.nameAt? path = none ↔ ∀ d ∈ plan.decisions, d.path ≠ path := by
  simp [nameAt?]

theorem Sound.paths_nodup (h : plan.Sound planner document) :
    (plan.decisions.map (·.path)).Nodup := by
  refine List.pairwise_map.mpr (h.ordered.imp fun hab hsame => ?_)
  exact hab (hsame ▸ List.suffix_rfl)

/-- A plan decides at most once at a path. -/
theorem Sound.eq_of_path (h : plan.Sound planner document) {d e : Decision}
    (hd : d ∈ plan.decisions) (he : e ∈ plan.decisions) (hsame : d.path = e.path) : d = e :=
  List.inj_on_of_nodup_map h.paths_nodup hd he hsame

theorem exists_of_nameAt? {path : Path} {name : String} (hname : plan.nameAt? path = some name) :
    ∃ d ∈ plan.decisions, d.path = path ∧ d.name = name := by
  obtain ⟨d, hfind, rfl⟩ := Option.map_eq_some_iff.mp hname
  exact ⟨d, List.mem_of_find?_eq_some hfind, by simpa using List.find?_some hfind, rfl⟩

/-- Looking up the path of a decision gives the name of that decision. -/
theorem Sound.nameAt?_of_mem (h : plan.Sound planner document) {d : Decision}
    (hd : d ∈ plan.decisions) : plan.nameAt? d.path = some d.name := by
  cases hname : plan.nameAt? d.path with
  | none => exact absurd rfl (nameAt?_eq_none_iff.mp hname d hd)
  | some name =>
    obtain ⟨e, he, hpath, rfl⟩ := exists_of_nameAt? hname
    rw [h.eq_of_path he hd hpath]

/-- A plan is a table from paths to names. -/
theorem Sound.nameAt?_eq_some_iff (h : plan.Sound planner document) {path : Path} {name : String} :
    plan.nameAt? path = some name ↔ ∃ d ∈ plan.decisions, d.path = path ∧ d.name = name := by
  refine ⟨exists_of_nameAt?, ?_⟩
  rintro ⟨d, hd, rfl, rfl⟩
  exact h.nameAt?_of_mem hd

/-- A lookup at the path of an object finds a decision on that very object. -/
theorem Sound.exists_of_nameAt?_object (h : plan.Sound planner document) {path : Path}
    {fields : Fields} {name : String} (hat : document.at? path = some (.object fields))
    (hname : plan.nameAt? path = some name) :
    ∃ d ∈ plan.decisions, d.path = path ∧ d.name = name ∧ d.fields = fields := by
  obtain ⟨d, hd, rfl, rfl⟩ := exists_of_nameAt? hname
  have hsame := (h.located d hd).symm.trans hat
  exact ⟨d, hd, rfl, rfl, by simpa using hsame⟩

/-- Neither the document nor the first item of a document that is an array becomes a reference. -/
theorem Sound.nameAt?_document (h : plan.Sound planner document) {path : Path}
    (hdocument : path.isDocument = true) : plan.nameAt? path = none := by
  refine nameAt?_eq_none_iff.mpr fun d hd hpath => ?_
  have hqualifies := h.named.qualified d hd
  rw [hpath, Planner.qualifies, hdocument] at hqualifies
  cases hqualifies

/-! ## The names of fragments -/

theorem mem_fragments {d : Decision} :
    d ∈ plan.fragments ↔ d ∈ plan.decisions ∧ d.origin = .extracted := by
  simp [fragments]

theorem Sound.names_nodup (h : plan.Sound planner document) :
    (plan.fragments.map (·.name)).Nodup :=
  h.named.fresh

/-- Different fragments have different names. -/
theorem Sound.eq_of_name (h : plan.Sound planner document) {f g : Decision}
    (hf : f ∈ plan.fragments) (hg : g ∈ plan.fragments) (hsame : f.name = g.name) : f = g :=
  List.inj_on_of_nodup_map h.names_nodup hf hg hsame

/-- Every decision names a fragment whose object has the structure of its own. -/
theorem Sound.exists_fragment (h : plan.Sound planner document) {d : Decision}
    (hd : d ∈ plan.decisions) :
    ∃ f ∈ plan.fragments, f.name = d.name ∧
      signature planner.policy (.object f.fields) =
        signature planner.policy (.object d.fields) := by
  obtain ⟨f, hf, horigin, hsource⟩ := h.named.source d hd
  exact ⟨f, mem_fragments.mpr ⟨hf, horigin⟩, hsource⟩

/-- Without sharing every decision makes a fragment. -/
theorem Sound.fragments_eq (h : plan.Sound planner document)
    (hoff : planner.options.reuseIdentical = false) : plan.fragments = plan.decisions :=
  List.filter_eq_self.mpr fun d hd => by simpa using h.named.unshared hoff d hd

end Plan
end ContractDraft

import ContractDraft.Proofs.Fragment.Register
import ContractDraft.Proofs.Fragment.Walk

/-!
# The planner's visit and the walk

The planner passes hints and depths down, and keeps taken names, counters and signatures beside its
decisions. What it keeps always agrees with the decisions (`Progress.Agrees`), so it decides the
same as the walk, which reads everything off paths and decisions (`visit_eq_walk`).
-/

namespace ContractDraft

namespace Progress

/-- What a walk keeps beside its decisions is what can be read off them. -/
structure Agrees (planner : Planner) (progress : Progress) : Prop where
  counted : progress.register.Counted
  taken : ∀ name, name ∈ progress.register.taken ↔ name ∈ planner.taken progress.decisions
  signatures : planner.options.reuseIdentical = true → progress.signatures =
    (progress.decisions.filter fun d => d.origin = .extracted).map fun d =>
      (signature planner.policy (.object d.fields), d.name)

variable {planner : Planner} {progress : Progress}

theorem Agrees.start (planner : Planner) : (start planner.rootName).Agrees planner where
  counted := .start planner.rootName
  taken _ := Iff.rfl
  signatures _ := rfl

/-! ## One decision -/

/-- A lookup in a table made from some items of a list is a search among them. -/
theorem lookup_map_filter {α : Type} (p : α → Bool) (key name : α → String) (wanted : String)
    (items : List α) :
    ((items.filter p).map fun a => (key a, name a)).lookup wanted =
      (items.find? fun a => p a ∧ key a = wanted).map name := by
  induction items with
  | nil => rfl
  | cons a items ih =>
    by_cases hp : p a = true
    · rw [List.filter_cons_of_pos hp, List.map_cons, List.lookup_cons]
      by_cases hkey : wanted = key a
      · simp [hp, hkey]
      · have hother : ¬ key a = wanted := fun h => hkey h.symm
        have hbeq : (wanted == key a) = false := by simpa using hkey
        simpa [hp, hbeq, hother] using ih
    · rw [List.filter_cons_of_neg hp]
      simpa [hp] using ih

/-- The table of signatures finds what a search through the decisions would find. -/
theorem Agrees.shared?_eq (h : progress.Agrees planner) (fields : Fields) :
    progress.shared? planner fields = planner.reusable? progress.decisions fields := by
  unfold shared? Planner.reusable?
  by_cases hreuse : planner.options.reuseIdentical = true
  · rw [if_pos hreuse, if_pos hreuse, h.signatures hreuse]
    have hlookup := lookup_map_filter (fun d : Decision => d.origin = .extracted)
      (fun d => signature planner.policy (.object d.fields)) (·.name)
      (signature planner.policy (.object fields)) progress.decisions
    simpa using hlookup
  · rw [if_neg hreuse, if_neg hreuse]

/-- A decision to share gives out no new name. -/
theorem Agrees.share (h : progress.Agrees planner) {path : Path} {name : String} {fields : Fields}
    (hname : planner.reusable? progress.decisions fields = some name) :
    (progress.share path name fields).Agrees planner where
  counted := h.counted
  taken other := by
    obtain ⟨_, f, hf, _, rfl, _⟩ := Planner.exists_of_reusable? hname
    have hknown : f.name ∈ progress.decisions.map (·.name) := List.mem_map_of_mem hf
    show other ∈ progress.register.taken ↔ _
    rw [h.taken other]
    simp only [Planner.taken, Progress.share, List.map_append, List.map_cons, List.map_nil,
      List.mem_cons, List.mem_append]
    constructor
    · rintro (hroot | hold)
      · exact .inl hroot
      · exact .inr (.inl hold)
    · rintro (hroot | hold | hnew | hnil)
      · exact .inl hroot
      · exact .inr hold
      · exact .inr (hnew ▸ hknown)
      · cases hnil
  signatures hreuse := by
    show progress.signatures = _
    rw [h.signatures hreuse]
    simp [Progress.share]

/-- The register gives out the name that the walk chooses. -/
theorem Agrees.decisions_extract (h : progress.Agrees planner) (path : Path) (fields : Fields) :
    (progress.extract planner path (Name.hint planner.rootName path) fields).decisions =
      progress.decisions ++ [planner.extract progress.decisions path fields] := by
  have hfree := h.counted.firstFree_allocate (Name.hint planner.rootName path)
  have hname : (progress.register.allocate (Name.hint planner.rootName path)).1 =
      (planner.extract progress.decisions path fields).name :=
    (hfree.congr fun name => (h.taken name).symm).eq (Name.firstFree_fresh _ _)
  show progress.decisions ++ [⟨path, (progress.register.allocate _).1, fields, .extracted⟩] = _
  rw [hname]
  rfl

theorem Agrees.extract (h : progress.Agrees planner) (path : Path) (hint : String)
    (fields : Fields) : (progress.extract planner path hint fields).Agrees planner where
  counted := h.counted.allocate hint
  taken name := by
    show name ∈ (progress.register.allocate hint).2.taken ↔ _
    rw [Register.taken_allocate, List.mem_cons, h.taken name]
    simp only [Planner.taken, Progress.extract, List.map_append, List.map_cons, List.map_nil,
      List.mem_cons, List.mem_append, List.not_mem_nil, or_false]
    tauto
  signatures hreuse := by
    have hold := h.signatures hreuse
    simp [Progress.extract, hreuse, hold]

end Progress

/-! ## The whole visit -/

namespace Planner

variable {planner : Planner}

/-- A visit that is told the hint and the depth of its path decides what the walk decides. -/
def VisitsAs (planner : Planner) (v : Value) : Prop :=
  ∀ (path : Path) (progress : Progress), progress.Agrees planner →
    let result := planner.visit path (Name.hint planner.rootName path) path.length v progress
    result.Agrees planner ∧ result.decisions = planner.walk path v progress.decisions

theorem visitFields_eq_walkFields {fields : Fields}
    (ih : ∀ field ∈ fields, planner.VisitsAs field.2) (path : Path) {progress : Progress}
    (h : progress.Agrees planner) :
    let result := planner.visitFields path path.length fields progress
    result.Agrees planner ∧
      result.decisions = planner.walkFields path fields progress.decisions := by
  induction fields generalizing progress with
  | nil =>
    simp only [visitFields, walkFields]
    exact ⟨h, trivial⟩
  | cons field fields ihfields =>
    obtain ⟨hagrees, hdecisions⟩ := ih field (List.mem_cons_self ..) (path.child field.1) progress h
    have hrest := ihfields (fun other hmem => ih other (List.mem_cons_of_mem _ hmem)) hagrees
    simp only [visitFields, walkFields]
    rw [← hdecisions]
    exact hrest

theorem visitsAs (planner : Planner) (v : Value) : planner.VisitsAs v := by
  induction v using Value.visit_induction with
  | object fields ih =>
    intro path progress h
    have hqualifies : (!path.isDocument && planner.extracts path.length fields) =
        planner.qualifies path fields := by
      simp only [qualifies, extracts, Bool.and_assoc]
    simp only [visit, walk, hqualifies, h.shared?_eq]
    split
    · cases hname : planner.reusable? progress.decisions fields with
      | some name => exact ⟨h.share hname, rfl⟩
      | none =>
        have hrest := visitFields_eq_walkFields ih path
          (h.extract path (Name.hint planner.rootName path) fields)
        rwa [h.decisions_extract] at hrest
    · exact visitFields_eq_walkFields ih path h
  | empty =>
    intro path progress h
    simp only [visit, walk]
    exact ⟨h, trivial⟩
  | array first items ih =>
    intro path progress h
    simp only [visit, walk]
    exact ih path.element progress h
  | scalar v hv =>
    intro path progress h
    rw [walk_scalar hv]
    cases v with
    | array items => cases hv
    | object fields => cases hv
    | _ =>
      simp only [visit]
      exact ⟨h, trivial⟩

/-- The planner decides what the walk decides. -/
theorem visit_eq_walk (planner : Planner) (document : Value) :
    (planner.visit .root (Name.lowerCamelCase planner.rootName) 0 document
      (.start planner.rootName)).decisions = planner.walk .root document [] :=
  (planner.visitsAs document .root _ (.start planner)).2

end Planner
end ContractDraft

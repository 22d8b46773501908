import ContractDraft.Generator.Run
import ContractDraft.Proofs.Fragment.Plan

/-!
# The names of fragments

Every fragment has the first of its choices that is neither the name of the document nor the name of
an earlier fragment. So no two fragments have one name, and a fragment is found by its name.
-/

namespace ContractDraft

namespace Planner

variable {planner : Planner}

/-- Every one of the fragments has the first choice that no fragment before it took. -/
def FirstChoices (planner : Planner) (fragments : List Decision) : Prop :=
  ∀ (i : ℕ) (f : Decision), fragments[i]? = some f →
    Name.FirstFree (planner.rootName :: (fragments.take i).map (·.name))
      (Name.identifier (Name.hint planner.rootName f.path)) f.name

/-- One more fragment with the first choice that is left. -/
theorem FirstChoices.snoc {fragments : List Decision} (h : FirstChoices planner fragments)
    {f : Decision} (hf : Name.FirstFree (planner.rootName :: fragments.map (·.name))
      (Name.identifier (Name.hint planner.rootName f.path)) f.name) :
    FirstChoices planner (fragments ++ [f]) := by
  intro i g hg
  by_cases hold : i < fragments.length
  · rw [List.getElem?_append_left hold] at hg
    rw [List.take_append_of_le_length (by omega)]
    exact h i g hg
  · have hlength := (List.getElem?_eq_some_iff.mp hg).1
    simp only [List.length_append, List.length_cons, List.length_nil] at hlength
    obtain rfl : i = fragments.length := by omega
    obtain rfl : f = g := by simpa using hg
    rwa [List.take_left]

/-- First choices are pairwise different, and none is the name of the document. -/
theorem FirstChoices.names_nodup {fragments : List Decision} (h : FirstChoices planner fragments) :
    (planner.rootName :: fragments.map (·.name)).Nodup := by
  refine List.nodup_cons.mpr ⟨fun hroot => ?_, ?_⟩
  · obtain ⟨f, hf, hsame⟩ := List.mem_map.mp hroot
    obtain ⟨i, hi⟩ := List.mem_iff_getElem?.mp hf
    exact (h i f hi).not_mem (hsame ▸ List.mem_cons_self ..)
  · -- Whatever stands before a name in the list is taken when the name is chosen.
    refine List.pairwise_map.mpr (List.pairwise_iff_getElem.mpr fun i j hi hj hlt hsame => ?_)
    refine (h j _ (List.getElem?_eq_getElem hj)).not_mem (List.mem_cons_of_mem _ ?_)
    rw [← hsame]
    refine List.mem_map_of_mem (List.mem_iff_getElem?.mpr ⟨i, ?_⟩)
    rw [List.getElem?_take_of_lt hlt, List.getElem?_eq_getElem hi]

/-- The names of all decisions are the names of the fragments among them. -/
theorem Named.mem_taken_iff {decisions : List Decision} (h : Named planner decisions)
    (name : String) :
    name ∈ planner.taken decisions ↔
      name ∈ planner.rootName ::
        (decisions.filter fun d => d.origin = .extracted).map (·.name) := by
  simp only [taken, List.mem_cons, List.mem_map, List.mem_filter, decide_eq_true_eq]
  refine or_congr_right ⟨?_, ?_⟩
  · rintro ⟨d, hd, rfl⟩
    obtain ⟨f, hf, horigin, hname, _⟩ := h.source d hd
    exact ⟨f, ⟨hf, horigin⟩, hname⟩
  · rintro ⟨f, ⟨hf, _⟩, rfl⟩
    exact ⟨f, hf, rfl⟩

theorem FirstChoices.move {m n : Moment} (hmove : planner.Move m n)
    (h : FirstChoices planner (m.decisions.filter fun d => d.origin = .extracted))
    (hnamed : Named planner m.decisions) :
    FirstChoices planner (n.decisions.filter fun d => d.origin = .extracted) := by
  cases hmove with
  | share _ _ => simpa using h
  | @extract path fields _ decisions _ _ =>
    have hnew : [planner.extract decisions path fields].filter (fun d => d.origin = .extracted) =
        [planner.extract decisions path fields] := rfl
    rw [List.filter_append, hnew]
    exact h.snoc ((Name.firstFree_fresh _ _).congr fun name => (hnamed.mem_taken_iff name).symm)
  | inline _ => exact h
  | enter => exact h
  | passEmpty => exact h
  | passScalar _ => exact h

theorem FirstChoices.run {m n : Moment} (hrun : Relation.ReflTransGen planner.Move m n)
    (h : FirstChoices planner (m.decisions.filter fun d => d.origin = .extracted))
    (hnamed : Named planner m.decisions) :
    FirstChoices planner (n.decisions.filter fun d => d.origin = .extracted) := by
  induction hrun with
  | refl => exact h
  | tail hbefore hmove ih => exact ih.move hmove (hnamed.run hbefore)

/-- Every fragment of a plan has the first choice that no fragment before it took. -/
theorem plan_firstChoices (planner : Planner) (document : Value) :
    FirstChoices planner (planner.plan document).fragments := by
  have hstart : FirstChoices planner [] := by simp [FirstChoices]
  by_cases henabled : planner.options.enabled = true
  · exact hstart.run (run_plan henabled document) (.start planner)
  · rw [plan, if_neg henabled]
    exact hstart

end Planner

namespace Config

/-- The names of the generated fragments are those of the plan. -/
theorem names_generateValue (config : Config) (document : Value) :
    (config.generateValue document).fragments.map (·.name) =
      (config.planner.plan document).fragments.map (·.name) := by
  simp only [generateValue, draft, Drafter.draft, drafter, List.map_map]
  rfl

/-- The names of fragments are pairwise different and differ from the name of the document, so that
looking up the name of a fragment finds this fragment. Each is the first of `base`, `base2`, `base3`
and so on that is neither the name of the document nor that of an earlier fragment; and whatever a
register has given out and counted so far, its search for a name ends, at the first attempt that is
not taken. -/
theorem fragment_names (config : Config) (document : Value) :
    let fragments := (config.planner.plan document).fragments
    let generated := config.generateValue document
    (config.rootName :: fragments.map (·.name)).Nodup ∧
      (∀ fragment ∈ generated.fragments, generated.fragment? fragment.name = some fragment) ∧
      (∀ (i : ℕ) (f : Decision), fragments[i]? = some f →
        Name.FirstFree (config.rootName :: (fragments.take i).map (·.name))
          (Name.identifier (Name.hint config.rootName f.path)) f.name) ∧
      ∀ (register : Register) (base : String), ∃ n,
        register.search base register.taken.length (register.opening base) =
            register.attempt base n ∧
          (register.attempt base n).name ∉ register.taken ∧
          ∀ m < n, (register.attempt base m).name ∈ register.taken := by
  intro fragments generated
  have hchoices := config.planner.plan_firstChoices document
  have hnodup : (config.rootName :: fragments.map (·.name)).Nodup := hchoices.names_nodup
  refine ⟨hnodup, fun fragment hmem => ?_, hchoices, Register.exists_search_eq_attempt⟩
  have hnames : (generated.fragments.map (·.name)).Nodup :=
    config.names_generateValue document ▸ (List.nodup_cons.mp hnodup).2
  exact find?_eq_of_nodup_map hnames hmem

/-- Three addresses under one key, and one under the name that the second of them got. -/
def addresses : Value :=
  let address : Value := .object [("street", .null), ("city", .null), ("zip", .null)]
  .object [("billing", .object [("address", address)]),
    ("shipping", .object [("address", address)]), ("legacy", .object [("address", address)]),
    ("address2", address)]

/-- The counter behind `address` passes over no free name, and `address2` is counted on its own. -/
theorem fragment_names_addresses :
    let fragments := (({} : Config).planner.plan addresses).fragments
    let generated := ({} : Config).generateValue addresses
    fragments.map (·.name) = ["address", "address2", "address3", "address22"] ∧
      (∀ fragment ∈ generated.fragments, generated.fragment? fragment.name = some fragment) ∧
      ∀ f : Decision, fragments[3]? = some f →
        Name.FirstFree ["body", "address", "address2", "address3"]
          (Name.identifier (Name.hint "body" f.path)) f.name := by
  intro fragments generated
  have hall := fragment_names {} addresses
  have hnames : fragments.map (·.name) = ["address", "address2", "address3", "address22"] := by
    decide +kernel
  refine ⟨hnames, hall.2.1, fun f hf => ?_⟩
  have hfirst := hall.2.2.1 3 f hf
  have htaken : (fragments.take 3).map (·.name) = ["address", "address2", "address3"] := by
    rw [List.map_take, hnames]
    rfl
  rwa [htaken] at hfirst

end Config
end ContractDraft
